import AxiomGrid.Lib.Loop
import AxiomGrid.Phantom.MemMachine
import Mathlib.Data.List.Sort

/-!
# What is recalled

No memory is recalled twice. The memories are as many as asked for and sorted by their similarities
exactly if the batches of the first stage fit into the limit, and sorting by words leaves in each place
a memory of the same similarity.
-/

namespace AxiomGrid.Phantom.MemMachine

variable {V R : Type} {env : Env V R} {table : Table}

/-! ### Retrieval -/

/-- What the updates of the memories keep. -/
def fixed (table : Table) : List (Option Str × Option Bytes) :=
  table.rows.map fun row => (row.id, row.embedding)

lemma fixed_updateStrengths (id : Str) (storageInc : PyFloat) (table : Table) :
    fixed (updateStrengths env id storageInc table) = fixed table := by
  rw [fixed, updateStrengths, List.map_map, fixed]
  exact List.map_congr_left fun row _ => by simp

/-- The memories that were retrieved are different rows of the table. -/
structure Retrieved (table : Table) (state : Recall) : Prop where
  ids : state.results.map Memory.id = state.seenIds
  nodup : state.seenIds.Nodup
  stored : ∀ id ∈ state.seenIds, some id ∈ table.rows.map Row.id
  fixed : fixed state.table = fixed table

lemma Retrieved.init (table : Table) : Retrieved table { table } where
  ids := rfl
  nodup := List.nodup_nil
  stored := nofun
  fixed := rfl

lemma Retrieved.add {state : Recall} (h : Retrieved table state) (score : String) {row : Fetched}
    (hrow : some row.id ∈ table.rows.map Row.id) : Retrieved table (state.add env score row) := by
  rw [Recall.add]
  split_ifs with hseen
  · exact h
  · refine ⟨?_, ?_, ?_, ?_⟩
    · simp [h.ids, formatMemory]
    · exact List.nodup_append.mpr ⟨h.nodup, List.nodup_singleton _, fun a ha b hb hab =>
        hseen (List.mem_singleton.mp hb ▸ hab ▸ ha)⟩
    · intro id hid
      rcases List.mem_append.mp hid with hid | hid
      · exact h.stored id hid
      · exact List.mem_singleton.mp hid ▸ hrow
    · exact (fixed_updateStrengths _ _ _).trans h.fixed

lemma Retrieved.foldl_add {state : Recall} (h : Retrieved table state) (score : String)
    {batch : List Fetched} (hbatch : ∀ row ∈ batch, some row.id ∈ table.rows.map Row.id) :
    Retrieved table (batch.foldl (Recall.add env score) state) := by
  induction batch generalizing state with
  | nil => exact h
  | cons row batch ih =>
    rw [List.forall_mem_cons] at hbatch
    exact ih (h.add score hbatch.1) hbatch.2

lemma Row.read_id {row : Row} {fetched : Fetched} (h : row.read = some fetched) :
    row.id = some fetched.id := by
  simp only [Row.read, Option.bind_eq_bind, Option.bind_eq_some_iff] at h
  obtain ⟨id, hid, _, -, _, -, _, -, _, -, _, -, heq⟩ := h
  cases heq
  exact hid

lemma select_id {K : Type} [LinearOrder K] {key : Row → K} {limit : ℕ} {condition : Row → Bool}
    {fetched : Fetched} (h : fetched ∈ select env key limit condition table) :
    some fetched.id ∈ table.rows.map Row.id := by
  obtain ⟨row, hrow, hread⟩ := List.mem_filterMap.mp h
  have hmem := (env.orderBy_perm key _).mem_iff.mp (List.mem_of_mem_take hrow)
  exact List.mem_map.mpr ⟨row, List.mem_of_mem_filter hmem, Row.read_id hread⟩

lemma length_select_le {K : Type} [LinearOrder K] (key : Row → K) (limit : ℕ) (condition : Row → Bool)
    (table : Table) : (select env key limit condition table).length ≤ limit :=
  (List.length_filterMap_le _ _).trans (List.length_take_le _ _)

lemma length_foldl_add (score : String) (batch : List Fetched) (state : Recall) :
    state.results.length ≤ (batch.foldl (Recall.add env score) state).results.length ∧
      (batch.foldl (Recall.add env score) state).results.length ≤
        state.results.length + batch.length := by
  induction batch generalizing state with
  | nil => simp
  | cons row batch ih =>
    have hstep : state.results.length ≤ (state.add env score row).results.length ∧
        (state.add env score row).results.length ≤ state.results.length + 1 := by
      rw [Recall.add]
      split_ifs <;> simp
    have hrest := ih (state.add env score row)
    rw [List.foldl_cons, List.length_cons]
    omega

section

variable {K : Type} [LinearOrder K] {key : Row → K} {column : Row → Option Str} {score : String}
  {batchSize : Recall → ℕ} {limit : ℕ} {state state' : Recall} {value : Str}

lemma Retrieved.fetch (hstate : Retrieved table state)
    (h : fetch env key column score batchSize limit state value = .ok state') :
    Retrieved table state' := by
  rw [MemMachine.fetch] at h
  split_ifs at h
  · exact Except.ok.inj h ▸ hstate
  · obtain ⟨n, -, rfl⟩ := Except.of_map_eq_ok h
    refine hstate.foldl_add score fun row hrow => ?_
    have hids : state.table.rows.map Row.id = table.rows.map Row.id := by
      simpa [MemMachine.fixed, Function.comp_def] using congrArg (List.map Prod.fst) hstate.fixed
    exact hids ▸ select_id hrow

lemma le_length_fetch (h : fetch env key column score batchSize limit state value = .ok state') :
    state.results.length ≤ state'.results.length := by
  rw [fetch] at h
  split_ifs at h
  · exact Except.ok.inj h ▸ le_rfl
  · obtain ⟨n, -, rfl⟩ := Except.of_map_eq_ok h
    exact (length_foldl_add _ _ _).1

/-- A batch of the remaining size fits. -/
lemma length_fetch_remaining_le
    (h : fetch env key column score (remaining limit) limit state value = .ok state')
    (hstate : state.results.length ≤ limit) : state'.results.length ≤ limit := by
  rw [fetch] at h
  split_ifs at h with hfull
  · exact Except.ok.inj h ▸ hstate
  · obtain ⟨n, hn, rfl⟩ := Except.of_map_eq_ok h
    have hsize : n = remaining limit state := by
      rw [bindLimit] at hn
      split_ifs at hn
      exact (Except.ok.inj hn).symm
    have hbatch := @length_select_le _ _ env _ _ key n (fun row => column row = some value) state.table
    have hlength := (@length_foldl_add _ _ env score
      (select env key n (fun row => column row = some value) state.table) state).2
    rw [remaining] at hsize
    omega

/-- What each batch keeps, the batches of a stage keep. -/
lemma foldlM_fetch {P : Recall → Prop} {values : List Str}
    (hstep : ∀ state state' value, P state →
      fetch env key column score batchSize limit state value = .ok state' → P state')
    (hstate : P state)
    (h : values.foldlM (fetch env key column score batchSize limit) state = .ok state') :
    P state' := by
  induction values generalizing state with
  | nil => exact Except.ok.inj h ▸ hstate
  | cons value values ih =>
    rw [List.foldlM_cons] at h
    obtain ⟨mid, hmid, h⟩ := Except.of_bind_eq_ok h
    exact ih (hstep state mid value hstate hmid) h

end

variable {query : Str} {granularities : List Str} {limit : ℕ} {state : Recall}

/-- Only the first stage can retrieve more than the limit. -/
lemma retrieve_spec (h : retrieve env query granularities limit table = .ok state) :
    Retrieved table state ∧ ∃ first, sections env query granularities limit table = .ok first ∧
      (state.results.length ≤ limit ↔ first.results.length ≤ limit) := by
  obtain ⟨first, hfirst, h⟩ := Except.of_bind_eq_ok h
  obtain ⟨second, hsecond, hglobals⟩ := Except.of_bind_eq_ok h
  have hretrieved : Retrieved table second :=
    foldlM_fetch (fun _ _ _ h => h.fetch)
      (foldlM_fetch (fun _ _ _ h => h.fetch) (Retrieved.init table) hfirst) hsecond
  have hmore : first.results.length ≤ second.results.length :=
    @foldlM_fetch _ _ env _ _ _ _ _ _ _ _ _ (fun state => first.results.length ≤ state.results.length)
      _ (fun _ _ _ h hstep => h.trans (le_length_fetch hstep)) le_rfl hsecond
  refine ⟨hretrieved.fetch hglobals, first, hfirst, fun hle => ?_, fun hle => ?_⟩
  · exact (hmore.trans (le_length_fetch hglobals)).trans hle
  · exact length_fetch_remaining_le hglobals
      (foldlM_fetch (fun _ _ _ h hstep => length_fetch_remaining_le hstep h) hle hsecond)

/-! ### Ranking -/

lemma similarity_eq_of_fixed {table' : Table} (h : fixed table' = fixed table) (id : Str)
    [LinearOrder R] : similarity env query table' id = similarity env query table id := by
  have hfind : ∀ t : Table, (t.rows.find? fun row => row.id = some id).bind Row.embedding =
      ((fixed t).find? fun entry => entry.1 = some id).bind Prod.snd := by
    intro t
    rw [fixed, List.find?_map, Option.bind_map]
    rfl
  rw [similarity, similarity, hfind, hfind, h]

lemma lexical_perm (results : List Memory) : (lexical env query results).Perm results := by
  have hperm := StableSort.ranked_perm
    (results.map fun memory => (sharedWords env query memory.text, memory))
  rw [List.map_map] at hperm
  simpa [lexical, Function.comp_def] using hperm

variable [LinearOrder R]

/-- What is asked of the memories that are recalled. -/
structure Recalled (env : Env V R) (query : Str) (limit : ℕ) (table : Table)
    (memories : List Memory) : Prop where
  length_le : memories.length ≤ limit
  stored : ∀ memory ∈ memories, some memory.id ∈ table.rows.map Row.id
  nodup : (memories.map Memory.id).Nodup
  sorted : memories.Pairwise fun memory memory' =>
    similarity env query table memory'.id ≤ similarity env query table memory.id

/-- Sorting by words leaves in each place a memory of the same similarity. -/
def KeepsSimilarities (env : Env V R) (query : Str) (table : Table) (results : List Memory) : Prop :=
  ∀ entry ∈ (lexical env query results).zip results,
    similarity env query table entry.1.id = similarity env query table entry.2.id

/-- The memories beside the ids are sorted by the similarities of the ids. -/
lemma semantic_spec (hstate : Retrieved table state) :
    (semantic env query state (lexical env query state.results)).Perm state.results ∧
      ((semantic env query state (lexical env query state.results)).Pairwise (fun memory memory' =>
          similarity env query table memory'.id ≤ similarity env query table memory.id) ↔
        KeepsSimilarities env query table state.results) := by
  have hlexical := @lexical_perm _ _ env query state.results
  have hlength : (lexical env query state.results).length = state.seenIds.length := by
    rw [hlexical.length_eq, ← hstate.ids, List.length_map]
  have hsim := fun id => @similarity_eq_of_fixed _ _ env _ query _ hstate.fixed id _
  set sim := similarity env query table
  have hsemantic : semantic env query state (lexical env query state.results) =
      StableSort.ranked (((lexical env query state.results).zip state.seenIds).map
        fun entry => (sim entry.2, entry.1)) := by
    rw [semantic]
    simp only [hsim]
  have hmemories : ((lexical env query state.results).zip state.seenIds).map Prod.fst =
      lexical env query state.results := List.map_fst_zip hlength.le
  have hids : ((lexical env query state.results).zip state.seenIds).map Prod.snd = state.seenIds :=
    List.map_snd_zip hlength.ge
  rw [hsemantic]
  constructor
  · refine (StableSort.ranked_perm _).trans ?_
    rw [List.map_map]
    exact (List.Perm.of_eq hmemories).trans hlexical
  · rw [StableSort.pairwise_ranked_iff]
    · rw [KeepsSimilarities, ← hstate.ids, List.zip_map_right, List.map_map, List.forall_mem_map]
      exact forall₂_congr fun _ _ => eq_comm
    · -- the ids are those of the memories, in another order
      have hleft := congrArg (List.map sim) hids
      have hright := congrArg (List.map fun memory : Memory => sim memory.id) hmemories
      rw [List.map_map] at hleft hright ⊢
      rw [List.map_map]
      refine (List.Perm.of_eq hleft).trans (.trans ?_ (List.Perm.of_eq hright.symm))
      rw [← hstate.ids, List.map_map]
      exact (hlexical.symm).map _

namespace Sample

/-- Texts are embedded as numbers; the fewer bytes an embedding has, the more similar it is. -/
def plain : Env ℤ ℤ where
  u := asciiData
  like pattern text := pattern == '%' :: text ++ ['%']
  orderBy key rows := rows.insertionSort fun row row' => key row ≤ key row'
  orderBy_perm _ _ := List.perm_insertionSort _ _
  orderBy_sorted _ _ := List.pairwise_insertionSort _ _
  now _ := 0
  embed _ := 0
  deserialize blob := some blob.length
  cosineSim query stored := query - stored
  zero := 0

def row (id : String) (contextKey : String) (embedding : Bytes) : Row where
  id := some id.toList
  timestamp := some 0
  content := some "memo".toList
  fullEpisode := some []
  embedding := some embedding
  appContext := some "mail".toList
  contextKey := some contextKey.toList
  storageStrength := some (.fin 1)

/-- One memory of a section, and two of another one. -/
def memories : Table where
  rows := [row "1" "inbox" [0], row "2" "sent" [], row "3" "sent" [0, 0]]
  nodup := by decide

def contexts : List Str := ["inbox".toList, "sent".toList]

lemma retrieve_eq : ∃ state, retrieve plain "memo".toList contexts 2 memories = .ok state ∧
    state.results.length = 3 := by
  have hlength : (retrieve plain "memo".toList contexts 2 memories).map (·.results.length) =
      .ok 3 := by decide +kernel
  obtain ⟨state, hstate, hthree⟩ := Except.of_map_eq_ok hlength
  exact ⟨state, hstate, hthree⟩

end Sample

end AxiomGrid.Phantom.MemMachine

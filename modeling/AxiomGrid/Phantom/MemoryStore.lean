import AxiomGrid.Lib.Dict
import AxiomGrid.Lib.RustStr
import AxiomGrid.Lib.StableSort
import AxiomGrid.Lib.Trim
import AxiomGrid.Lib.UniqueRows
import AxiomGrid.Receipts.Log
import Mathlib.Data.List.DropRight

/-!
# The memory store

`MemoryStore` of `phantom-core/src/memory_store.rs`, with `learn_from_interaction` of
`phantom-core/src/memory/types.rs`. Every interaction is learned from and then the whole memory is saved:
all tables are emptied and filled again, where a row that breaks a constraint is dropped without a word.
What is saved is loaded again because learning never makes such rows.
-/

namespace AxiomGrid.Phantom.MemoryStore

open Receipts (isWhiteSpace)

/-! ### What is remembered -/

structure UserPreference where
  key : Str
  value : Str
  weight : ℚ

structure Interaction where
  app : Str
  prompt : Str
  response : Str
  accepted : Bool
  timestamp : ℕ

structure KnowledgeGraph where
  nodes : List Str := []
  edges : List (ℕ × ℕ × Str) := []

/-- `KairoMemory`, less what is neither learned nor saved. A hash map is the list of its entries. -/
structure KairoMemory where
  preferences : List UserPreference := []
  interactions : List Interaction := []
  appBias : Dict Str Str := []
  reusablePatterns : Dict Str Str := []
  wordPreferences : Dict Str Str := []
  pptPreferences : Dict Str Str := []
  graph : KnowledgeGraph := {}

/-- The single precision of the weights, and the classes of characters. -/
structure Env where
  round : ℚ → ℚ
  round_round : ∀ q, round (round q) = round q
  isUppercase : Char → Bool
  isAlphanumeric : Char → Bool

variable (env : Env)

/-! ### Learning -/

/-- The preferences with the weight of one of them raised. -/
def boostPreference (key value : Str) (boost : ℚ) : List UserPreference → List UserPreference
  | [] => [⟨key, value, env.round boost⟩]
  | pref :: prefs =>
    if pref.key = key ∧ pref.value = value then
      { pref with weight := env.round (pref.weight + env.round boost) } :: prefs
    else pref :: boostPreference key value boost prefs

/-- `add_preference`. -/
def KairoMemory.addPreference (memory : KairoMemory) (category value : String) (boost : ℚ) :
    KairoMemory :=
  { memory with
    preferences := boostPreference env category.toList value.toList boost memory.preferences }

/-- `extract_concepts`. -/
def extractConcepts (response : Str) : List Str :=
  (((Words.words isWhiteSpace response).filter fun word =>
      3 < Str.byteLength word ∧ word.head?.any env.isUppercase).map
    (List.trim fun c => !env.isAlphanumeric c)).take 5

/-- `graph_update`. -/
def KairoMemory.graphUpdate (memory : KairoMemory) (response : Str) : KairoMemory :=
  let nodes := (extractConcepts env response).foldl
    (fun nodes concept => if concept ∈ nodes then nodes else nodes ++ [concept]) memory.graph.nodes
  let last := nodes.length - 1
  let edges :=
    if 2 ≤ nodes.length then memory.graph.edges ++ [(last - 1, last, "related_to".toList)]
    else memory.graph.edges
  { memory with graph := { nodes, edges } }

/-- What an accepted response is learned from. -/
def KairoMemory.learnAccepted (memory : KairoMemory) (response : Str) : KairoMemory :=
  let has := fun needle : String => Str.contains needle.toList response
  let memory :=
    if has "struct" || has "impl" || has "pub fn" then
      memory.addPreference env "technical_level" "highly technical / code-centric" (1 / 5)
    else if has "strategic" || has "roadmap" then
      memory.addPreference env "technical_level" "executive / strategic" (1 / 5)
    else memory
  let memory :=
    if has "!" || has "exciting" then
      memory.addPreference env "tone" "energetic / optimistic" (1 / 10)
    else if has "shall" || has "hereby" then
      memory.addPreference env "tone" "formal / legalistic" (3 / 10)
    else memory
  let memory :=
    if has "- " then memory.addPreference env "formatting" "prefers bullet points" (1 / 10)
    else memory
  let memory :=
    if has "| --- |" then memory.addPreference env "formatting" "uses markdown tables" (1 / 5)
    else memory
  memory.graphUpdate env response

/-- `learn_from_interaction`. -/
def KairoMemory.learnFromInteraction (memory : KairoMemory) (interaction : Interaction) :
    KairoMemory :=
  let memory := if interaction.accepted then memory.learnAccepted env interaction.response else memory
  { memory with interactions := memory.interactions ++ [interaction] }

/-! ### The tables -/

/-- A row of `interactions`, less its id. -/
structure InteractionRow where
  app : Str
  prompt : Str
  response : Str
  accepted : Bool
  timestamp : ℤ

/-- A row of `graph_nodes`. -/
structure NodeRow where
  id : ℤ
  name : Str

/-- The tables, with the rows in the order in which they were inserted. -/
structure Database where
  preferences : List UserPreference
  interactions : List InteractionRow
  skillPatterns : List (Str × Str)
  userModel : List (Str × Str × Str)
  graphNodes : List NodeRow
  graphEdges : List (ℤ × ℤ × Str)
  appBias : List (Str × Str)

/-- `UNIQUE(key, value)`. -/
def preferenceClash (row r : UserPreference) : Bool := row.key = r.key ∧ row.value = r.value

/-- A table with the first column as its primary key. -/
def firstClash (row r : Str × Str) : Bool := row.1 = r.1

/-- `UNIQUE(category, key)`. -/
def userModelClash (row r : Str × Str × Str) : Bool := row.1 = r.1 ∧ row.2.1 = r.2.1

/-- The primary key of a node, and its name. -/
def nodeClash (row r : NodeRow) : Bool := row.id = r.id ∨ row.name = r.name

/-- `n as i64` of a `u64`. -/
def asI64 (n : ℕ) : ℤ := if n < 2 ^ 63 then n else n - 2 ^ 64

/-- `z as u64` of an `i64`. -/
def asU64 (z : ℤ) : ℕ := (z % 2 ^ 64).toNat

/-- The row of an interaction. -/
def Interaction.row (interaction : Interaction) : InteractionRow where
  app := interaction.app
  prompt := interaction.prompt
  response := interaction.response
  accepted := interaction.accepted
  timestamp := asI64 interaction.timestamp

/-- The interaction of a row. -/
def InteractionRow.read (row : InteractionRow) : Interaction where
  app := row.app
  prompt := row.prompt
  response := row.response
  accepted := row.accepted
  timestamp := asU64 row.timestamp

/-- `save`, where every statement succeeds that breaks no constraint. All tables are emptied first. -/
def save (memory : KairoMemory) : Database where
  preferences := UniqueRows.insertAll preferenceClash [] memory.preferences
  interactions := memory.interactions.map Interaction.row
  skillPatterns := UniqueRows.insertAll firstClash [] memory.reusablePatterns
  userModel := UniqueRows.insertAll userModelClash []
    (memory.wordPreferences.map (fun entry => ("word".toList, entry)) ++
      memory.pptPreferences.map fun entry => ("ppt".toList, entry))
  graphNodes := UniqueRows.insertAll nodeClash []
    (memory.graph.nodes.zipIdx.map fun entry => ⟨entry.2, entry.1⟩)
  graphEdges := memory.graph.edges.map fun edge => (edge.1, edge.2.1, edge.2.2)
  appBias := UniqueRows.insertAll firstClash [] memory.appBias

/-- A hash map filled with the rows in turn. -/
def toMap (rows : List (Str × Str)) : Dict Str Str := rows.foldl (fun map row => map.set row.1 row.2) []

/-- The rows of a category of `user_model`. -/
def ofCategory (category : String) (rows : List (Str × Str × Str)) : List (Str × Str) :=
  (rows.filter fun row => row.1 = category.toList).map Prod.snd

/-- `load`; there is no database where the file does not exist. Indices fit an `i64`. -/
def load : Option Database → KairoMemory
  | none => {}
  | some db =>
    { preferences := db.preferences.map fun row => { row with weight := env.round row.weight }
      interactions :=
        ((StableSort.sortBy InteractionRow.timestamp db.interactions).take 500).map InteractionRow.read
      appBias := toMap db.appBias
      reusablePatterns := toMap db.skillPatterns
      wordPreferences := toMap (ofCategory "word" db.userModel)
      pptPreferences := toMap (ofCategory "ppt" db.userModel)
      graph :=
        { nodes := (StableSort.sortBy NodeRow.id db.graphNodes).map NodeRow.name
          edges := db.graphEdges.map fun edge => (edge.1.toNat, edge.2.1.toNat, edge.2.2) } }

/-! ### Recording -/

/-- The file of the store, and the memory. -/
structure State where
  file : Option Database
  memory : KairoMemory := {}

/-- The memory with the last 500 interactions. -/
def KairoMemory.truncate (memory : KairoMemory) : KairoMemory :=
  if 500 < memory.interactions.length then
    { memory with interactions := memory.interactions.drop (memory.interactions.length - 500) }
  else memory

/-- `record_interaction`, with the time at which it is called. -/
def State.recordInteraction (state : State) (interaction : Interaction) : State :=
  let memory := (state.memory.learnFromInteraction env interaction).truncate
  { file := some (save memory), memory }

/-- The calls in turn, with an empty memory at first. -/
def run (file : Option Database) (calls : List Interaction) : State :=
  calls.foldl (State.recordInteraction env) { file }

/-! ### What is saved is loaded -/

/-- The memories of whose tables no row is dropped. -/
structure Distinct (memory : KairoMemory) : Prop where
  preferences : UniqueRows.Distinct preferenceClash memory.preferences
  weights : ∀ pref ∈ memory.preferences, env.round pref.weight = pref.weight
  appBias : (memory.appBias.map Prod.fst).Nodup
  reusablePatterns : (memory.reusablePatterns.map Prod.fst).Nodup
  wordPreferences : (memory.wordPreferences.map Prod.fst).Nodup
  pptPreferences : (memory.pptPreferences.map Prod.fst).Nodup
  nodes : memory.graph.nodes.Nodup

/-- The memories of which nothing is lost. -/
structure Savable (memory : KairoMemory) : Prop extends Distinct env memory where
  sorted : memory.interactions.Pairwise fun i i' => i.timestamp ≤ i'.timestamp
  times : ∀ i ∈ memory.interactions, i.timestamp < 2 ^ 63
  bounded : memory.interactions.length ≤ 500

lemma asI64_of_lt {n : ℕ} (h : n < 2 ^ 63) : asI64 n = n := if_pos h

lemma asU64_asI64 {n : ℕ} (h : n < 2 ^ 63) : asU64 (asI64 n) = n := by
  rw [asI64_of_lt h, asU64]
  omega

lemma read_row {interaction : Interaction} (h : interaction.timestamp < 2 ^ 63) :
    interaction.row.read = interaction := by
  rw [Interaction.row, InteractionRow.read, asU64_asI64 h]

/-- A table of the entries of a map. -/
lemma toMap_insertAll {map : Dict Str Str} (h : (map.map Prod.fst).Nodup) :
    toMap (UniqueRows.insertAll firstClash [] map) = map := by
  have hdistinct : UniqueRows.Distinct firstClash map :=
    (List.pairwise_map.mp h).imp fun hne => decide_eq_false (Ne.symm hne)
  rw [UniqueRows.insertAll_nil_of_distinct hdistinct, toMap, Dict.foldl_set_of_nodup h]

lemma toMap_ofCategory {word ppt : Dict Str Str} (hword : (word.map Prod.fst).Nodup)
    (hppt : (ppt.map Prod.fst).Nodup) :
    let rows := UniqueRows.insertAll userModelClash []
      (word.map (fun entry => ("word".toList, entry)) ++ ppt.map fun entry => ("ppt".toList, entry))
    toMap (ofCategory "word" rows) = word ∧ toMap (ofCategory "ppt" rows) = ppt := by
  have hcategory : ∀ (category : Str) {map : Dict Str Str}, (map.map Prod.fst).Nodup →
      UniqueRows.Distinct userModelClash (map.map fun entry => (category, entry)) := by
    intro category map h
    refine List.pairwise_map.mpr ((List.pairwise_map.mp h).imp fun hne => ?_)
    exact decide_eq_false fun heq => hne heq.2.symm
  have hne : "ppt".toList ≠ "word".toList := by decide
  have hdistinct : UniqueRows.Distinct userModelClash
      (word.map (fun entry => ("word".toList, entry)) ++
        ppt.map fun entry => ("ppt".toList, entry)) := by
    refine List.pairwise_append.mpr ⟨hcategory _ hword, hcategory _ hppt, ?_⟩
    intro r hr row hrow
    obtain ⟨entry, -, rfl⟩ := List.mem_map.mp hr
    obtain ⟨entry', -, rfl⟩ := List.mem_map.mp hrow
    exact decide_eq_false fun heq => hne heq.1
  rw [UniqueRows.insertAll_nil_of_distinct hdistinct]
  simp only [ofCategory, toMap, List.filter_append, List.filter_map, Function.comp_def, List.map_map,
    hne, hne.symm, decide_true, decide_false, List.filter_true, List.filter_false,
    List.map_nil, List.append_nil, List.nil_append, List.map_id']
  exact ⟨Dict.foldl_set_of_nodup hword, Dict.foldl_set_of_nodup hppt⟩

lemma preferences_load {prefs : List UserPreference} (h : UniqueRows.Distinct preferenceClash prefs)
    (hweights : ∀ pref ∈ prefs, env.round pref.weight = pref.weight) :
    (UniqueRows.insertAll preferenceClash [] prefs).map
      (fun row => { row with weight := env.round row.weight }) = prefs := by
  rw [UniqueRows.insertAll_nil_of_distinct h]
  refine (List.map_congr_left fun pref hpref => ?_).trans (List.map_id prefs)
  rw [hweights pref hpref]
  rfl

lemma interactions_load {interactions : List Interaction}
    (hsorted : interactions.Pairwise fun i i' => i.timestamp ≤ i'.timestamp)
    (htimes : ∀ i ∈ interactions, i.timestamp < 2 ^ 63) (hbounded : interactions.length ≤ 500) :
    ((StableSort.sortBy InteractionRow.timestamp (interactions.map Interaction.row)).take 500).map
      InteractionRow.read = interactions := by
  have hrows : (interactions.map Interaction.row).Pairwise fun r r' => r.timestamp ≤ r'.timestamp := by
    refine List.pairwise_map.mpr (hsorted.imp_of_mem fun hi hi' hle => ?_)
    simp only [Interaction.row, asI64_of_lt (htimes _ hi), asI64_of_lt (htimes _ hi')]
    exact_mod_cast hle
  rw [StableSort.sortBy_eq_self hrows, List.take_of_length_le (by rwa [List.length_map]), List.map_map]
  exact (List.map_congr_left fun i hi => read_row (htimes i hi)).trans (List.map_id interactions)

lemma nodes_load {nodes : List Str} (h : nodes.Nodup) :
    (StableSort.sortBy NodeRow.id (UniqueRows.insertAll nodeClash []
      (nodes.zipIdx.map fun entry => ⟨entry.2, entry.1⟩))).map NodeRow.name = nodes := by
  have hnames : nodes.zipIdx.Pairwise fun a b => a.1 ≠ b.1 := by
    refine List.pairwise_map.mp ?_
    rwa [List.zipIdx_map_fst]
  have hids : nodes.zipIdx.Pairwise fun a b => a.2 < b.2 := by
    refine List.pairwise_map.mp ?_
    rw [List.zipIdx_map_snd]
    exact List.pairwise_lt_range'
  have hdistinct : UniqueRows.Distinct nodeClash
      (nodes.zipIdx.map fun entry => (⟨entry.2, entry.1⟩ : NodeRow)) := by
    refine List.pairwise_map.mpr ((hnames.and hids).imp fun h => ?_)
    simp only [nodeClash, decide_eq_false_iff_not, not_or]
    exact ⟨by exact_mod_cast h.2.ne', Ne.symm h.1⟩
  have hsorted : (nodes.zipIdx.map fun entry => (⟨entry.2, entry.1⟩ : NodeRow)).Pairwise
      fun r r' => r.id ≤ r'.id :=
    List.pairwise_map.mpr (hids.imp fun h => Int.ofNat_le.mpr h.le)
  rw [UniqueRows.insertAll_nil_of_distinct hdistinct, StableSort.sortBy_eq_self hsorted, List.map_map]
  exact List.zipIdx_map_fst 0 nodes

/-- Saving and loading again gives the memory back. -/
theorem load_save {memory : KairoMemory} (h : Savable env memory) :
    load env (some (save memory)) = memory := by
  obtain ⟨hword, hppt⟩ := toMap_ofCategory h.wordPreferences h.pptPreferences
  rw [load, save]
  simp only
  rw [preferences_load env h.preferences h.weights, interactions_load h.sorted h.times h.bounded,
    toMap_insertAll h.appBias, toMap_insertAll h.reusablePatterns, hword, hppt, nodes_load h.nodes,
    List.map_map]
  have hedges : ((fun edge : ℤ × ℤ × Str => (edge.1.toNat, edge.2.1.toNat, edge.2.2)) ∘
      fun edge : ℕ × ℕ × Str => ((edge.1 : ℤ), (edge.2.1 : ℤ), edge.2.2)) = id := rfl
  rw [hedges, List.map_id]

/-! ### What learning keeps -/

/-- The memories that learning makes, with these interactions: the edges run between nodes. -/
structure Learned (interactions : List Interaction) (memory : KairoMemory) : Prop extends
    Distinct env memory where
  interactions_eq : memory.interactions = interactions
  edges : ∀ edge ∈ memory.graph.edges,
    edge.1 < memory.graph.nodes.length ∧ edge.2.1 < memory.graph.nodes.length

/-- What a preference is unique by. -/
def UserPreference.pair (pref : UserPreference) : Str × Str := (pref.key, pref.value)

lemma distinct_iff_nodup {prefs : List UserPreference} :
    UniqueRows.Distinct preferenceClash prefs ↔ (prefs.map UserPreference.pair).Nodup := by
  rw [UniqueRows.Distinct, List.Nodup, List.pairwise_map]
  refine ⟨List.Pairwise.imp fun h heq => ?_, List.Pairwise.imp fun h => ?_⟩
  · have hpair := Prod.mk.inj heq
    exact of_decide_eq_false h ⟨hpair.1.symm, hpair.2.symm⟩
  · exact decide_eq_false fun heq => h (Prod.ext heq.1.symm heq.2.symm)

lemma map_pair_boostPreference (key value : Str) (boost : ℚ) (prefs : List UserPreference) :
    (boostPreference env key value boost prefs).map UserPreference.pair =
      if (key, value) ∈ prefs.map UserPreference.pair then prefs.map UserPreference.pair
      else prefs.map UserPreference.pair ++ [(key, value)] := by
  induction prefs with
  | nil => simp [boostPreference, UserPreference.pair]
  | cons pref prefs ih =>
    rw [boostPreference]
    split_ifs with hpref hmem hmem
    · rfl
    · exact absurd (List.mem_cons.mpr (.inl (Prod.ext hpref.1.symm hpref.2.symm))) hmem
    all_goals
      have hne : (key, value) ≠ pref.pair := fun heq =>
        hpref ⟨(congrArg Prod.fst heq).symm, (congrArg Prod.snd heq).symm⟩
      rw [List.map_cons, List.mem_cons, or_iff_right hne] at hmem
      rw [List.map_cons, ih]
    · rw [if_pos hmem, List.map_cons]
    · rw [if_neg hmem, List.map_cons, List.cons_append]

lemma mem_boostPreference {key value : Str} {boost : ℚ} {prefs : List UserPreference}
    (h : ∀ pref ∈ prefs, env.round pref.weight = pref.weight) :
    ∀ pref ∈ boostPreference env key value boost prefs, env.round pref.weight = pref.weight := by
  induction prefs with
  | nil => simp [boostPreference, env.round_round]
  | cons pref prefs ih =>
    rw [List.forall_mem_cons] at h
    rw [boostPreference]
    split_ifs
    · exact List.forall_mem_cons.mpr ⟨env.round_round _, h.2⟩
    · exact List.forall_mem_cons.mpr ⟨h.1, ih h.2⟩

variable {env} {memory : KairoMemory} {interactions : List Interaction}

lemma Learned.addPreference (h : Learned env interactions memory) (category value : String) (boost : ℚ) :
    Learned env interactions (memory.addPreference env category value boost) where
  preferences := by
    have hnodup := distinct_iff_nodup.mp h.preferences
    rw [KairoMemory.addPreference, distinct_iff_nodup, map_pair_boostPreference]
    split_ifs with hmem
    · exact hnodup
    · rw [← List.concat_eq_append]
      exact hnodup.concat hmem
  weights := mem_boostPreference env h.weights
  appBias := h.appBias
  reusablePatterns := h.reusablePatterns
  wordPreferences := h.wordPreferences
  pptPreferences := h.pptPreferences
  nodes := h.nodes
  interactions_eq := h.interactions_eq
  edges := h.edges

/-- Adding the concepts that are not there yet is inserting them where no name may occur twice. -/
lemma foldl_concepts (nodes concepts : List Str) :
    concepts.foldl (fun nodes concept => if concept ∈ nodes then nodes else nodes ++ [concept]) nodes =
      UniqueRows.insertAll (fun row r => decide (row = r)) nodes concepts := by
  rw [UniqueRows.insertAll]
  congr 1
  funext nodes concept
  rw [UniqueRows.insert]
  congr 1
  simp

lemma Learned.graphUpdate (h : Learned env interactions memory) (response : Str) :
    Learned env interactions (memory.graphUpdate env response) where
  preferences := h.preferences
  weights := h.weights
  appBias := h.appBias
  reusablePatterns := h.reusablePatterns
  wordPreferences := h.wordPreferences
  pptPreferences := h.pptPreferences
  nodes := by
    rw [KairoMemory.graphUpdate, foldl_concepts]
    have hdistinct : UniqueRows.Distinct (fun row r => decide (row = r)) memory.graph.nodes :=
      h.nodes.imp fun hne => decide_eq_false (Ne.symm hne)
    exact (hdistinct.insertAll _).imp fun hne => Ne.symm (of_decide_eq_false hne)
  interactions_eq := h.interactions_eq
  edges := by
    rw [KairoMemory.graphUpdate, foldl_concepts]
    have hlength := (UniqueRows.prefix_insertAll (fun row r => decide (row = r)) memory.graph.nodes
      (extractConcepts env response)).length_le
    have hold : ∀ edge ∈ memory.graph.edges, _ := fun edge hedge =>
      (h.edges edge hedge).imp (fun hlt => hlt.trans_le hlength) fun hlt => hlt.trans_le hlength
    dsimp only
    split_ifs with htwo
    · intro edge hedge
      rw [List.mem_append, List.mem_singleton] at hedge
      obtain hedge | rfl := hedge
      · exact hold edge hedge
      · dsimp only
        omega
    · exact hold

/-- A preference may be added, or another one. -/
lemma Learned.addIf (h : Learned env interactions memory) (c c' : Bool) (category value value' : String)
    (boost boost' : ℚ) :
    Learned env interactions (if c then memory.addPreference env category value boost
      else if c' then memory.addPreference env category value' boost' else memory) := by
  split_ifs
  · exact h.addPreference category value boost
  · exact h.addPreference category value' boost'
  · exact h

lemma Learned.learnAccepted (h : Learned env interactions memory) (response : Str) :
    Learned env interactions (memory.learnAccepted env response) := by
  have hformat : ∀ {memory : KairoMemory} (c : Bool) (value : String) (boost : ℚ), Learned env interactions memory →
      Learned env interactions (if c then memory.addPreference env "formatting" value boost else memory) := by
    intro memory c value boost h
    split_ifs
    · exact h.addPreference _ _ _
    · exact h
  exact (hformat _ _ _ (hformat _ _ _ ((h.addIf _ _ _ _ _ _ _).addIf _ _ _ _ _ _ _))).graphUpdate response

/-- Learning from an interaction adds it to the interactions, of which the last are kept. -/
lemma Learned.learnFromInteraction (h : Learned env interactions memory) (interaction : Interaction) :
    Learned env ((interactions ++ [interaction]).rtake 500)
      (memory.learnFromInteraction env interaction).truncate := by
  have hlearned : ∀ {memory : KairoMemory} (before after : List Interaction),
      Learned env before memory →
      Learned env after { memory with interactions := after } := fun _ _ h =>
    ⟨⟨h.preferences, h.weights, h.appBias, h.reusablePatterns, h.wordPreferences, h.pptPreferences,
      h.nodes⟩, rfl, h.edges⟩
  have hafter : Learned env (interactions ++ [interaction])
      (memory.learnFromInteraction env interaction) := by
    rw [KairoMemory.learnFromInteraction, ← h.interactions_eq]
    split_ifs
    · have hlearn := h.learnAccepted interaction.response
      rw [hlearn.interactions_eq, h.interactions_eq]
      exact hlearned _ _ hlearn
    · rw [h.interactions_eq]
      exact hlearned _ _ h
  rw [KairoMemory.truncate, hafter.interactions_eq]
  split_ifs with hmany
  · rw [List.rtake]
    exact hlearned _ _ hafter
  · rwa [List.rtake, Nat.sub_eq_zero_of_le (not_lt.mp hmany), List.drop_zero]

/-- Keeping the last elements before another one is added or behind it. -/
lemma rtake_append_singleton {α : Type*} (n : ℕ) (xs : List α) (x : α) :
    (xs.rtake n ++ [x]).rtake n = (xs ++ [x]).rtake n := by
  have hdrop : xs.rtake n ++ [x] = (xs ++ [x]).drop (xs.length - n) := by
    rw [List.rtake, List.drop_append_of_le_length (Nat.sub_le _ _)]
  rw [hdrop, List.rtake, List.rtake, List.drop_drop, List.length_drop, List.length_append,
    List.length_singleton]
  congr 1
  omega

/-- After every call the memory is one that learning makes, with the last interactions, and it is saved. -/
lemma run_spec (file : Option Database) (calls : List Interaction) :
    Learned env (calls.rtake 500) (run env file calls).memory ∧
      (calls ≠ [] → (run env file calls).file = some (save (run env file calls).memory)) := by
  induction calls using List.reverseRecOn with
  | nil =>
    refine ⟨⟨⟨.nil, ?_, .nil, .nil, .nil, .nil, .nil⟩, rfl, ?_⟩, fun h => absurd rfl h⟩
    · simp [run]
    · simp [run]
  | append_singleton calls call ih =>
    have hrun : run env file (calls ++ [call]) =
        (run env file calls).recordInteraction env call := by simp [run]
    have hlearned := ih.1.learnFromInteraction call
    rw [rtake_append_singleton] at hlearned
    rw [hrun]
    exact ⟨hlearned, fun _ => rfl⟩

/-- After every call the store loads what is in the memory: the last 500 interactions, and edges between
nodes. -/
theorem load_run (env : Env) (file : Option Database) {calls : List Interaction}
    (hsorted : calls.Pairwise fun call call' => call.timestamp ≤ call'.timestamp)
    (htimes : ∀ call ∈ calls, call.timestamp < 2 ^ 63) {done : List Interaction}
    (hdone : done <+: calls) (hne : done ≠ []) :
    load env (run env file done).file = (run env file done).memory ∧
      (load env (run env file done).file).interactions = done.rtake 500 ∧
      ∀ edge ∈ (load env (run env file done).file).graph.edges,
        edge.1 < (load env (run env file done).file).graph.nodes.length ∧
          edge.2.1 < (load env (run env file done).file).graph.nodes.length := by
  obtain ⟨hlearned, hfile⟩ := @run_spec env file done
  have hlast : done.rtake 500 <:+ done := List.drop_suffix _ _
  have hsub : done.rtake 500 <:+: calls := hlast.isInfix.trans hdone.isInfix
  have hsavable : Savable env (run env file done).memory := by
    refine ⟨hlearned.toDistinct, ?_, ?_, ?_⟩
    · rw [hlearned.interactions_eq]
      exact hsorted.sublist hsub.sublist
    · rw [hlearned.interactions_eq]
      exact fun call hcall => htimes call (hsub.subset hcall)
    · rw [hlearned.interactions_eq, List.rtake, List.length_drop]
      omega
  have hload : load env (run env file done).file = (run env file done).memory := by
    rw [hfile hne, load_save env hsavable]
  rw [hload]
  exact ⟨rfl, hlearned.interactions_eq, hlearned.edges⟩

namespace Sample

/-- Weights that are not rounded, and the classes of ASCII. -/
def asciiEnv : Env := ⟨id, fun _ => rfl, Char.isUpper, Char.isAlphanum⟩

/-- An accepted response and a refused one, in one second. -/
def calls : List Interaction :=
  [⟨"word".toList, "plan".toList, "The strategic Roadmap of the Company!".toList, true, 1700000000⟩,
    ⟨"word".toList, "plan".toList, "No.".toList, false, 1700000000⟩]

end Sample

theorem load_run_calls :
    load Sample.asciiEnv (run Sample.asciiEnv none Sample.calls).file =
        (run Sample.asciiEnv none Sample.calls).memory ∧
      (load Sample.asciiEnv (run Sample.asciiEnv none Sample.calls).file).interactions = Sample.calls.rtake 500 ∧
      ∀ edge ∈ (load Sample.asciiEnv (run Sample.asciiEnv none Sample.calls).file).graph.edges,
        edge.1 < (load Sample.asciiEnv (run Sample.asciiEnv none Sample.calls).file).graph.nodes.length ∧
          edge.2.1 < (load Sample.asciiEnv (run Sample.asciiEnv none Sample.calls).file).graph.nodes.length :=
  load_run Sample.asciiEnv none (by simp [Sample.calls]) (by simp [Sample.calls]) List.prefix_rfl
    (by simp [Sample.calls])

example : (run Sample.asciiEnv none Sample.calls).memory.graph.nodes = ["Roadmap".toList, "Company".toList] := by
  decide

end AxiomGrid.Phantom.MemoryStore

import AxiomGrid.Lib.Gossip
import AxiomGrid.Phantom.Maintenance
import Mathlib.Algebra.Order.Ring.Rat
import Mathlib.Data.Int.ConditionallyCompleteOrder
import Mathlib.Order.ConditionallyCompleteLattice.Basic
import Mathlib.Tactic.Linarith
import Mathlib.Tactic.NormNum

/-!
# A network of memories

Peers in a local network remember, recall, decay and forget memories, and pull the ground truth of each
other: `MemMachine` and `LanSync` of `phantom-core` at every peer, in any order. A packet that a peer has
served may be merged late or never. What a peer holds is what chains of packets bring (`run_held`), every
row is a memory that was remembered (`run_carries`), and a memory that is not ground truth is forgotten
when it has not been recalled for long (`run_forgets`).
-/

namespace AxiomGrid.Phantom.Network

open SemanticMemory LanSync

variable {ι : Type*}

/-- The vaults of the peers, and the packets that were served. -/
structure State (ι : Type*) where
  vaults : ι → Database
  packets : List (List SyncEntry)

/-- No peer has stored anything. -/
def State.init : State ι := ⟨fun _ => none, []⟩

inductive Event (ι : Type*) where
  /-- `MemMachine::new`, where `LIMIT 1` returns the row at `i`. -/
  | new (p : ι) (i : ℕ)
  | change (p : ι) (c : Change)
  /-- `handle_sync_client`. -/
  | serve (q : ι) (newest : Newest)
  /-- `pull_from_peer`, with the packet that the peer has served. -/
  | pull (p : ι) (n : ℕ)

section

variable [DecidableEq ι]

def State.setVault (s : State ι) (p : ι) (db : Database) : State ι :=
  { s with vaults := Function.update s.vaults p db }

/-- What an event does. A memory machine works on a table that `new` has created. -/
def step (s : State ι) : Event ι → Option (State ι)
  | .new p i => some (s.setVault p (some (new (s.vaults p) i)))
  | .change p c => ((s.vaults p).bind fun table => c.apply table).map fun table => s.setVault p (some table)
  | .serve q newest => some { s with packets := s.packets ++ [exportEntries newest (s.vaults q)] }
  | .pull p n => (s.packets[n]?).map fun entries => s.setVault p (mergeEntries (s.vaults p) entries).1

def run (events : List (Event ι)) : Option (State ι) := Transition.run step .init events

end

/-- What an event makes of a row of the peer. -/
def Event.onRow [DecidableEq ι] (p : ι) : Event ι → Row → Row
  | .change q c => if q = p then c.onRow else id
  | _ => id

/-! ### One step -/

section

variable [DecidableEq ι] {s s' : State ι} {e : Event ι} {p q : ι} {row row' : Row} {memory : Memory}

lemma setVault_self (s : State ι) (p : ι) (db : Database) : (s.setVault p db).vaults p = db :=
  Function.update_self ..

lemma setVault_of_ne (s : State ι) (db : Database) (h : q ≠ p) :
    (s.setVault p db).vaults q = s.vaults q := Function.update_of_ne h ..

@[simp] lemma Event.onRow_id (e : Event ι) (p : ι) (row : Row) : (e.onRow p row).id = row.id := by
  cases e with
  | change q c =>
    rw [onRow]
    split_ifs
    · exact c.onRow_id row
    · rfl
  | new => rfl
  | serve => rfl
  | pull => rfl

@[simp] lemma Event.onRow_isGroundTruth (e : Event ι) (p : ι) (row : Row) :
    (e.onRow p row).isGroundTruth = row.isGroundTruth := by
  cases e with
  | change q c =>
    rw [onRow]
    split_ifs
    · exact c.onRow_isGroundTruth row
    · rfl
  | new => rfl
  | serve => rfl
  | pull => rfl

/-- A row is that of a memory that was just remembered, of an entry that was just pulled, or an old one. -/
lemma mem_step (h : step s e = some s') (hrow : row' ∈ rowsOf (s'.vaults p)) :
    (∃ row ∈ rowsOf (s.vaults p), row' = e.onRow p row ∧
      (e = .change p .forget → row.forgotten = false)) ∨
    (∃ memory, e = .change p (.remember memory) ∧ row' = memory.row) ∨
    ∃ n entries entry, e = .pull p n ∧ s.packets[n]? = some entries ∧ entry ∈ entries ∧
      row' = entry.row := by
  cases e with
  | new q i =>
    cases h
    refine .inl ⟨row', ?_, rfl, by simp⟩
    obtain rfl | hq := eq_or_ne p q
    · rw [setVault_self] at hrow
      exact mem_new hrow
    · rwa [setVault_of_ne _ _ hq] at hrow
  | change q c =>
    obtain ⟨table', htable', rfl⟩ := Option.map_eq_some_iff.mp h
    obtain ⟨table, htable, happly⟩ := Option.bind_eq_some_iff.mp htable'
    obtain rfl | hq := eq_or_ne q p
    · rw [setVault_self] at hrow
      obtain ⟨row, hold, rfl, hkept⟩ | ⟨memory, rfl, rfl⟩ := (mem_apply happly).mp hrow
      · refine .inl ⟨row, by rwa [htable], by rw [Event.onRow, if_pos rfl], fun heq => hkept ?_⟩
        cases heq
        rfl
      · exact .inr (.inl ⟨memory, rfl, rfl⟩)
    · rw [setVault_of_ne _ _ hq.symm] at hrow
      refine .inl ⟨row', hrow, by rw [Event.onRow, if_neg hq]; rfl, fun heq => absurd ?_ hq⟩
      cases heq
      rfl
  | serve q newest =>
    cases h
    exact .inl ⟨row', hrow, rfl, by simp⟩
  | pull q n =>
    obtain ⟨entries, hentries, rfl⟩ := Option.map_eq_some_iff.mp h
    obtain rfl | hq := eq_or_ne q p
    · rw [setVault_self, rowsOf_mergeEntries] at hrow
      obtain hold | hnew := UniqueRows.mem_insertAll hrow
      · exact .inl ⟨row', hold, rfl, by simp⟩
      · obtain ⟨entry, hentry, rfl⟩ := List.mem_map.mp hnew
        exact .inr (.inr ⟨n, entries, entry, rfl, hentries, hentry, rfl⟩)
    · rw [setVault_of_ne _ _ hq.symm] at hrow
      exact .inl ⟨row', hrow, rfl, by simp⟩

/-- A row stays, unless it is forgotten or the vault holds embeddings of another dimension. -/
lemma onRow_mem_step (h : step s e = some s') (hrow : row ∈ rowsOf (s.vaults p))
    (hforget : e = .change p .forget → row.forgotten = false)
    (hmatch : ∀ row ∈ rowsOf (s.vaults p), row.mismatch = false) :
    e.onRow p row ∈ rowsOf (s'.vaults p) := by
  cases e with
  | new q i =>
    cases h
    obtain rfl | hq := eq_or_ne p q
    · rw [setVault_self]
      change row ∈ (new (s.vaults p) i).rows
      rwa [rows_new hmatch]
    · rwa [setVault_of_ne _ _ hq]
  | change q c =>
    obtain ⟨table', htable', rfl⟩ := Option.map_eq_some_iff.mp h
    obtain ⟨table, htable, happly⟩ := Option.bind_eq_some_iff.mp htable'
    rw [Event.onRow]
    split_ifs with hq
    · subst hq
      rw [setVault_self]
      rw [htable] at hrow
      exact (mem_apply happly).mpr (.inl ⟨row, hrow, rfl, fun hc => hforget (by rw [hc])⟩)
    · rwa [setVault_of_ne _ _ (Ne.symm hq)]
  | serve q newest =>
    cases h
    exact hrow
  | pull q n =>
    obtain ⟨entries, hentries, rfl⟩ := Option.map_eq_some_iff.mp h
    obtain rfl | hq := eq_or_ne q p
    · rw [setVault_self, rowsOf_mergeEntries]
      exact (UniqueRows.prefix_insertAll _ _ _).subset hrow
    · rwa [setVault_of_ne _ _ hq.symm]

/-- The packets after a step. -/
lemma packets_step (h : step s e = some s') :
    s'.packets = s.packets ∨
      ∃ q newest, e = .serve q newest ∧ s'.packets = s.packets ++ [exportEntries newest (s.vaults q)] := by
  cases e with
  | new q i =>
    cases h
    exact .inl rfl
  | change q c =>
    obtain ⟨table', -, rfl⟩ := Option.map_eq_some_iff.mp h
    exact .inl rfl
  | serve q newest =>
    cases h
    exact .inr ⟨q, newest, rfl, rfl⟩
  | pull q n =>
    obtain ⟨entries, -, rfl⟩ := Option.map_eq_some_iff.mp h
    exact .inl rfl

end

/-! ### Every row is a memory that was remembered -/

/-- The entry of a memory at the time at which it is stored. -/
def entryOf (memory : Memory) : SyncEntry where
  id := memory.id
  content := memory.content
  appContext := memory.appContext
  contextKey := memory.contextKey.getD []
  tags := List.intercalate [','] memory.tags
  timestamp := memory.timestamp
  isGroundTruth := memory.isGroundTruth

/-- The row is that of the memory, but for its time, its strengths, and the episode and the embedding,
which are not pulled. -/
structure Carries (row : Row) (memory : Memory) : Prop where
  columns : { row with
    timestamp := some memory.timestamp
    fullEpisode := memory.row.fullEpisode
    embedding := some memory.embedding
    storageStrength := memory.row.storageStrength
    retrievalStrength := memory.row.retrievalStrength } = memory.row
  timestamp : ∃ t, row.timestamp = some t
  embedding : row.embedding = none ∨ row.embedding = some memory.embedding
  strong : ∃ x, row.storageStrength = some (.fin x) ∧ 1 ≤ x

section

variable {s : State ι} {events : List (Event ι)} {p : ι} {row : Row} {memory : Memory} {entry : SyncEntry}

lemma carries_row (memory : Memory) : Carries memory.row memory :=
  ⟨rfl, ⟨_, rfl⟩, .inr rfl, ⟨1, rfl, le_rfl⟩⟩

lemma Carries.id (h : Carries row memory) : row.id = some memory.id := congrArg Row.id h.columns

lemma Carries.isGroundTruth (h : Carries row memory) : row.isGroundTruth = some memory.isGroundTruth :=
  congrArg Row.isGroundTruth h.columns

lemma Carries.toEntry (h : Carries row memory) :
    ∃ t, toEntry row = some { entryOf memory with timestamp := t } := by
  obtain ⟨t, ht⟩ := h.timestamp
  refine ⟨t, ?_⟩
  have hid := h.id
  have hcontent : row.content = some memory.content := congrArg Row.content h.columns
  have happ : row.appContext = some memory.appContext := congrArg Row.appContext h.columns
  have hkey : row.contextKey = some (memory.contextKey.getD []) := congrArg Row.contextKey h.columns
  have htags : row.tags = some (List.intercalate [','] memory.tags) := congrArg Row.tags h.columns
  simp only [LanSync.toEntry, hid, hcontent, happ, hkey, htags, ht, h.isGroundTruth, Option.bind_eq_bind,
    Option.bind_some, Option.pure_def]
  rfl

/-- An entry that was served is that of the memory, but for its time. -/
lemma carries_entry (h : { entry with timestamp := memory.timestamp } = entryOf memory) :
    Carries entry.row memory := by
  have hentry : entry = { entryOf memory with timestamp := entry.timestamp } := by
    rw [← h]
  rw [hentry]
  exact ⟨rfl, ⟨_, rfl⟩, .inl rfl, ⟨1, rfl, le_rfl⟩⟩

/-- A row that is strong is not isolated. -/
lemma isolate_of_strong {x : ℚ} (hx : row.storageStrength = some (.fin x)) (hle : 1 ≤ x) :
    row.isolate = row := by
  have hweak : ¬x < 3 / 10 := by linarith
  rw [Row.isolate, if_neg]
  simp [hx, PyFloat.lt, hweak]

lemma Carries.onRow (h : Carries row memory) (c : Change) : Carries (c.onRow row) memory := by
  obtain ⟨x, hx, hle⟩ := h.strong
  cases c with
  | updateStrengths id now =>
    change Carries (Row.strengthen id now row) memory
    rw [Row.strengthen]
    split_ifs
    · refine ⟨h.columns, ⟨now, rfl⟩, h.embedding, ?_⟩
      simp only [hx, Option.map_some, PyFloat.add, PyFloat.min, PyFloat.lt, decide_eq_true_eq]
      split_ifs
      · exact ⟨_, rfl, by linarith⟩
      · exact ⟨2, rfl, by norm_num⟩
    · exact h
  | decay =>
    change Carries (Row.decay row) memory
    rw [Row.decay]
    split_ifs
    · exact ⟨h.columns, h.timestamp, h.embedding, h.strong⟩
    · exact h
  | isolate =>
    change Carries (Row.isolate row) memory
    rwa [isolate_of_strong hx hle]
  | remember => exact h
  | forget => exact h

/-- Every row is a memory that its peer has remembered, or ground truth that some peer has. -/
structure Sound (events : List (Event ι)) (s : State ι) : Prop where
  rows : ∀ p, ∀ row ∈ rowsOf (s.vaults p), ∃ q memory, .change q (.remember memory) ∈ events ∧
    (q = p ∨ memory.isGroundTruth = true) ∧ Carries row memory
  packets : ∀ entries ∈ s.packets, ∀ entry ∈ entries, ∃ q memory,
    .change q (.remember memory) ∈ events ∧ memory.isGroundTruth = true ∧
    { entry with timestamp := memory.timestamp } = entryOf memory

/-- What a peer exports is ground truth that was remembered. -/
lemma Sound.exported (h : Sound events s) {newest : Newest}
    (hentry : entry ∈ exportEntries newest (s.vaults p)) : ∃ q memory,
    .change q (.remember memory) ∈ events ∧ memory.isGroundTruth = true ∧
    { entry with timestamp := memory.timestamp } = entryOf memory := by
  obtain ⟨htrue, row, hrow, hread⟩ := mem_exportEntries newest hentry
  obtain ⟨q, memory, hmemory, -, hcarries⟩ := h.rows p row hrow
  obtain ⟨t, ht⟩ := hcarries.toEntry
  obtain rfl := Option.some.inj (hread.symm.trans ht)
  exact ⟨q, memory, hmemory, htrue, rfl⟩

end

section

variable [DecidableEq ι] {s s' : State ι} {events more : List (Event ι)} {e : Event ι} {p q : ι}
  {row : Row} {memory : Memory} {entry : SyncEntry}

lemma Carries.onEvent (h : Carries row memory) (e : Event ι) (p : ι) :
    Carries (e.onRow p row) memory := by
  cases e with
  | change q c =>
    rw [Event.onRow]
    split_ifs
    · exact h.onRow c
    · exact h
  | new => exact h
  | serve => exact h
  | pull => exact h

lemma Sound.step (h : Sound events s) (hstep : step s e = some s') : Sound (events ++ [e]) s' where
  rows := fun p row hrow => by
    obtain ⟨row, hold, rfl, -⟩ | ⟨memory, rfl, rfl⟩ | ⟨n, entries, entry, -, hentries, hentry, rfl⟩ :=
      mem_step hstep hrow
    · obtain ⟨q, memory, hmemory, hmay, hcarries⟩ := h.rows p row hold
      exact ⟨q, memory, List.mem_append_left _ hmemory, hmay, hcarries.onEvent e p⟩
    · exact ⟨p, memory, List.mem_append_right _ (List.mem_singleton_self _), .inl rfl, carries_row memory⟩
    · obtain ⟨q, memory, hmemory, htrue, heq⟩ := h.packets entries (List.mem_of_getElem? hentries) entry hentry
      exact ⟨q, memory, List.mem_append_left _ hmemory, .inr htrue, carries_entry heq⟩
  packets := fun entries hentries entry hentry => by
    have hold : (∃ q memory, Event.change q (.remember memory) ∈ events ∧ memory.isGroundTruth = true ∧
        { entry with timestamp := memory.timestamp } = entryOf memory) := by
      obtain hsame | ⟨q, newest, rfl, hadded⟩ := packets_step hstep
      · exact h.packets entries (hsame ▸ hentries) entry hentry
      · rw [hadded, List.mem_append, List.mem_singleton] at hentries
        obtain hentries | rfl := hentries
        · exact h.packets entries hentries entry hentry
        · exact h.exported hentry
    obtain ⟨q, memory, hmemory, hrest⟩ := hold
    exact ⟨q, memory, List.mem_append_left _ hmemory, hrest⟩

lemma sound_run (h : run events = some s) : Sound events s :=
  Transition.run_induction Network.step (P := Sound)
    ⟨fun _ _ hrow => (List.not_mem_nil hrow).elim, fun _ hentries => (List.not_mem_nil hentries).elim⟩
    (fun _ _ _ _ _ => Sound.step) h

end

/-! ### What a peer holds -/

/-- The ids of the ground truth in a vault. -/
def held (db : Database) : Set Str :=
  {id | ∃ row ∈ rowsOf db, row.id = some id ∧ row.isGroundTruth = some true}

/-- The ids that a packet brings. -/
def brought (entries : List SyncEntry) : Set Str := {id | ∃ entry ∈ entries, entry.id = id}

namespace Event

/-- The id of the memory that is remembered. -/
def remembered : Event ι → Option Str
  | change _ (.remember memory) => some memory.id
  | _ => none

/-- The id of the ground truth that is remembered. -/
def truth : Event ι → Option Str
  | change _ (.remember memory) => if memory.isGroundTruth then some memory.id else none
  | _ => none

/-- What an event is among peers that gossip about ground truth. -/
def gossip : Event ι → Option (Gossip.Event ι Str)
  | change p (.remember memory) => if memory.isGroundTruth then some (.learn p memory.id) else none
  | serve q _ => some (.publish q)
  | pull p n => some (.absorb p n)
  | _ => none

/-- The event adds ground truth with the id to the vault of the peer. -/
def Adds (s : State ι) (p : ι) (id : Str) (e : Event ι) : Prop :=
  (∃ memory, e = change p (.remember memory) ∧ memory.isGroundTruth = true ∧ memory.id = id) ∨
    ∃ n entries, e = pull p n ∧ s.packets[n]? = some entries ∧ id ∈ brought entries

end Event

/-- Every embedding has 256 floats. -/
def Embedded (events : List (Event ι)) : Prop :=
  ∀ p memory, .change p (.remember memory) ∈ events → Row.embeddingLength memory.embedding = some 256

/-- Every memory has its own id and an embedding of 256 floats, and at most 500 of them are ground truth. -/
structure Small (events : List (Event ι)) : Prop where
  fresh : (events.filterMap Event.remembered).Nodup
  embedded : Embedded events
  few : (events.filterMap Event.truth).length ≤ 500

section

variable {s : State ι} {events more : List (Event ι)} {p q : ι} {row : Row} {memory memory' : Memory}
  {id : Str}

lemma Embedded.of_append (h : Embedded (events ++ more)) : Embedded events :=
  fun p memory hmemory => h p memory (List.mem_append_left _ hmemory)

lemma Small.of_append (h : Small (events ++ more)) : Small events where
  fresh := by
    have hfresh := h.fresh
    rw [List.filterMap_append] at hfresh
    exact hfresh.of_append_left
  embedded := h.embedded.of_append
  few := by
    have hfew := h.few
    rw [List.filterMap_append, List.length_append] at hfew
    omega

/-- Two memories with one id are one. -/
lemma Small.memory_eq (h : Small events) (hp : .change p (.remember memory) ∈ events)
    (hq : .change q (.remember memory') ∈ events) (hid : memory.id = memory'.id) : memory = memory' := by
  have heq := (UniqueRows.distinct_byKey_iff.mpr h.fresh).eq_of_key hp hq rfl (congrArg some hid.symm)
  cases heq
  rfl

lemma Carries.mismatch (h : Carries row memory)
    (hembedding : Row.embeddingLength memory.embedding = some 256) : row.mismatch = false := by
  obtain hnone | hsome := h.embedding
  · rw [Row.mismatch, hnone]
    rfl
  · simp [Row.mismatch, hsome, hembedding]

lemma Sound.mismatch (h : Sound events s) (hembedded : Embedded events) :
    ∀ row ∈ rowsOf (s.vaults p), row.mismatch = false := fun row hrow => by
  obtain ⟨q, memory, hmemory, -, hcarries⟩ := h.rows p row hrow
  exact hcarries.mismatch (hembedded q memory hmemory)

/-- There are not more rows of ground truth than memories. -/
lemma Sound.length_trueRows (h : Sound events s) (p : ι) :
    (trueRows (s.vaults p)).length ≤ (events.filterMap Event.truth).length := by
  have hcarried : ∀ row ∈ trueRows (s.vaults p), ∃ id ∈ events.filterMap Event.truth, row.id = some id := by
    intro row hrow
    obtain ⟨hrow, hflag⟩ := List.mem_filter.mp hrow
    obtain ⟨q, memory, hmemory, -, hcarries⟩ := h.rows p row hrow
    have htrue := hcarries.isGroundTruth.symm.trans (of_decide_eq_true hflag)
    refine ⟨memory.id, List.mem_filterMap.mpr ⟨_, hmemory, ?_⟩, hcarries.id⟩
    rw [Event.truth, if_pos (Option.some.inj htrue)]
  have hnodup : ((trueRows (s.vaults p)).map Row.id).Nodup := by
    have hdistinct : UniqueRows.Distinct sameId (trueRows (s.vaults p)) := by
      cases hdb : s.vaults p with
      | none => exact .nil
      | some table => exact table.distinct.filter _
    refine List.pairwise_map.mpr (hdistinct.imp_of_mem fun {row row'} hrow _ hdiffer heq => ?_)
    obtain ⟨id, -, hid⟩ := hcarried row hrow
    have hclash : sameId row' row = true := UniqueRows.byKey_iff.mpr ⟨id, heq.symm.trans hid, hid⟩
    exact Bool.false_ne_true (hdiffer.symm.trans hclash)
  have hsubset : (trueRows (s.vaults p)).map Row.id ⊆ (events.filterMap Event.truth).map some := by
    intro key hkey
    obtain ⟨row, hrow, rfl⟩ := List.mem_map.mp hkey
    obtain ⟨id, hmem, hid⟩ := hcarried row hrow
    exact List.mem_map.mpr ⟨id, hmem, hid.symm⟩
  simpa using (hnodup.subperm hsubset).length_le

/-- A peer serves ground truth that it holds. -/
lemma brought_subset_held (newest : Newest) (db : Database) :
    brought (exportEntries newest db) ⊆ held db := by
  rintro _ ⟨entry, hentry, rfl⟩
  obtain ⟨htrue, row, hrow, hread⟩ := mem_exportEntries newest hentry
  obtain ⟨hid, hflag⟩ := columns_of_toEntry hread
  exact ⟨row, hrow, hid, by rw [hflag, htrue]⟩

/-- It serves all that it holds. -/
lemma Sound.held_subset_brought (h : Sound events s) (hsmall : Small events) (newest : Newest) :
    held (s.vaults p) ⊆ brought (exportEntries newest (s.vaults p)) := by
  rintro id ⟨row, hrow, hid, hflag⟩
  obtain ⟨q, memory, -, -, hcarries⟩ := h.rows p row hrow
  obtain ⟨t, hread⟩ := hcarries.toEntry
  obtain ⟨hid', hflag'⟩ := columns_of_toEntry hread
  refine ⟨_, exportEntries_of_le newest ((h.length_trueRows p).trans hsmall.few) ⟨?_, row, hrow, hread⟩, ?_⟩
  · exact (Option.some.inj (hflag.symm.trans hflag')).symm
  · exact (Option.some.inj (hid.symm.trans hid')).symm

/-- What a packet brings is held once it is merged. -/
lemma Sound.brought_subset_merged (h : Sound events s) (hsmall : Small events) {n : ℕ}
    {entries : List SyncEntry} (hentries : s.packets[n]? = some entries) :
    brought entries ⊆ held (mergeEntries (s.vaults p) entries).1 := by
  have hcarried : ∀ entry ∈ entries, ∃ q memory, .change q (.remember memory) ∈ events ∧
      memory.isGroundTruth = true ∧ Carries entry.row memory := fun entry hentry => by
    obtain ⟨q, memory, hmemory, htrue, heq⟩ := h.packets entries (List.mem_of_getElem? hentries) entry hentry
    exact ⟨q, memory, hmemory, htrue, carries_entry heq⟩
  rintro id ⟨entry, hentry, rfl⟩
  obtain ⟨q, memory, hmemory, htrue, hcarries⟩ := hcarried entry hentry
  obtain ⟨row, hrow, hsame⟩ := @UniqueRows.exists_of_mem_new _ sameId (rowsOf (s.vaults p)) _ _
    (List.mem_map_of_mem (f := SyncEntry.row) hentry)
  have hid : row.id = some entry.id := by
    obtain rfl | hclash := hsame
    · rfl
    · obtain ⟨id, hid, hid'⟩ := UniqueRows.byKey_iff.mp hclash
      exact hid'.trans hid.symm
  refine ⟨row, by rwa [rowsOf_mergeEntries], hid, ?_⟩
  -- a row with the id carries the same memory
  obtain hold | hnew := UniqueRows.mem_insertAll hrow
  · obtain ⟨q', memory', hmemory', -, hcarries'⟩ := h.rows p row hold
    have hids := (hcarries'.id.symm.trans hid).trans hcarries.id
    obtain rfl := hsmall.memory_eq hmemory' hmemory (Option.some.inj hids)
    rw [hcarries'.isGroundTruth, htrue]
  · obtain ⟨entry', hentry', rfl⟩ := List.mem_map.mp hnew
    obtain ⟨q', memory', -, htrue', hcarries'⟩ := hcarried entry' hentry'
    rw [hcarries'.isGroundTruth, htrue']

end

/-! ### Peers that gossip -/

section

variable {s : State ι} {g : Gossip.State ι Str} {exact : Prop}

/-- The peers know what the vaults hold; if nothing was left out, the vaults hold all of it. -/
structure Simulates (exact : Prop) (s : State ι) (g : Gossip.State ι Str) : Prop where
  known : ∀ p, held (s.vaults p) ⊆ g.known p ∧ (exact → g.known p ⊆ held (s.vaults p))
  packets : List.Forall₂ (fun entries facts => brought entries ⊆ facts ∧ (exact → facts ⊆ brought entries))
    s.packets g.packets

/-- The packet with a number, on both sides. -/
lemma Simulates.packet (h : Simulates exact s g) {n : ℕ} {entries : List SyncEntry}
    (hentries : s.packets[n]? = some entries) :
    ∃ facts, g.packets[n]? = some facts ∧ brought entries ⊆ facts ∧ (exact → facts ⊆ brought entries) := by
  obtain ⟨hn, rfl⟩ := List.getElem?_eq_some_iff.mp hentries
  have hn' : n < g.packets.length := h.packets.length_eq ▸ hn
  exact ⟨g.packets[n], List.getElem?_eq_getElem hn', h.packets.get hn hn'⟩

lemma Simulates.mono {exact' : Prop} (h : Simulates exact s g) (hexact : exact' → exact) :
    Simulates exact' s g where
  known := fun p => ⟨(h.known p).1, fun he => (h.known p).2 (hexact he)⟩
  packets := h.packets.imp fun _ _ hpacket => ⟨hpacket.1, fun he => hpacket.2 (hexact he)⟩

end

section

variable [DecidableEq ι] {s s' : State ι} {g : Gossip.State ι Str} {events more : List (Event ι)} {e : Event ι}
  {p q : ι} {id : Str} {memory : Memory} {exact : Prop}

/-- Ground truth that a peer holds after a step was there or has been added. -/
lemma held_of_step (hstep : step s e = some s') (hid : id ∈ held (s'.vaults p)) :
    id ∈ held (s.vaults p) ∨ e.Adds s p id := by
  obtain ⟨row', hrow, hid, hflag⟩ := hid
  obtain ⟨row, hold, rfl, -⟩ | ⟨memory, rfl, rfl⟩ | ⟨n, entries, entry, rfl, hentries, hentry, rfl⟩ :=
    mem_step hstep hrow
  · exact .inl ⟨row, hold, by rwa [Event.onRow_id] at hid, by rwa [Event.onRow_isGroundTruth] at hflag⟩
  · exact .inr (.inl ⟨memory, rfl, Option.some.inj hflag, Option.some.inj hid⟩)
  · exact .inr (.inr ⟨n, entries, rfl, hentries, entry, hentry, Option.some.inj hid⟩)

/-- Ground truth stays in a vault. -/
lemma held_subset_step (h : Sound events s) (hembedded : Embedded events) (hstep : step s e = some s') :
    held (s.vaults p) ⊆ held (s'.vaults p) := by
  rintro id ⟨row, hrow, hid, hflag⟩
  refine ⟨_, onRow_mem_step hstep hrow (fun _ => ?_) (h.mismatch hembedded), ?_, ?_⟩
  · simp [Row.forgotten, hflag]
  · rwa [Event.onRow_id]
  · rwa [Event.onRow_isGroundTruth]

/-- What was held stays, and what is added is held. -/
lemma held_step (h : Sound events s) (hsmall : Small events) (hstep : step s e = some s')
    (hid : id ∈ held (s.vaults p) ∨ e.Adds s p id) : id ∈ held (s'.vaults p) := by
  obtain hold | ⟨memory, rfl, htrue, rfl⟩ | ⟨n, entries, rfl, hentries, hbrought⟩ := hid
  · exact held_subset_step h hsmall.embedded hstep hold
  · obtain ⟨table', htable', rfl⟩ := Option.map_eq_some_iff.mp hstep
    obtain ⟨table, -, happly⟩ := Option.bind_eq_some_iff.mp htable'
    rw [setVault_self]
    exact ⟨memory.row, (mem_apply happly).mpr (.inr ⟨memory, rfl, rfl⟩), rfl, congrArg some htrue⟩
  · obtain ⟨entries', hentries', rfl⟩ := Option.map_eq_some_iff.mp hstep
    obtain rfl := Option.some.inj (hentries.symm.trans hentries')
    rw [setVault_self]
    exact h.brought_subset_merged hsmall hentries hbrought

/-- Knowledge that grows by what an event adds. -/
lemma Simulates.of_adds (h : Simulates exact s g) (hsound : Sound events s) (hsmall : exact → Small events)
    (hstep : step s e = some s') (hpackets : s'.packets = s.packets) {known : ι → Set Str}
    (hle : ∀ p id, e.Adds s p id → id ∈ known p) (hkept : ∀ p, g.known p ⊆ known p)
    (hge : exact → ∀ p id, id ∈ known p → id ∈ g.known p ∨ e.Adds s p id) :
    Simulates exact s' { g with known } where
  known := fun p => by
    refine ⟨fun id hid => ?_, fun hexact id hid => ?_⟩
    · exact (held_of_step hstep hid).elim (fun hold => hkept p ((h.known p).1 hold)) (hle p id)
    · refine held_step hsound (hsmall hexact) hstep ?_
      exact (hge hexact p id hid).imp_left fun hold => (h.known p).2 hexact hold
  packets := hpackets ▸ h.packets

/-- Ground truth that is remembered is learned. -/
lemma Simulates.learn (h : Simulates exact s g) (hsound : Sound events s) (hsmall : exact → Small events)
    (htrue : memory.isGroundTruth = true) (hstep : step s (.change q (.remember memory)) = some s') :
    Simulates exact s' { g with known := Function.update g.known q (insert memory.id (g.known q)) } := by
  have hpackets : s'.packets = s.packets := by
    obtain ⟨table', -, rfl⟩ := Option.map_eq_some_iff.mp hstep
    rfl
  refine h.of_adds hsound hsmall hstep hpackets ?_ ?_ ?_
  · rintro p id (⟨memory', heq, -, rfl⟩ | ⟨n, entries, heq, -⟩)
    · cases heq
      rw [Function.update_self]
      exact .inl rfl
    · cases heq
  · exact fun p id hid => (Gossip.mem_update (Set.subset_insert _ _)).mpr (.inl hid)
  · intro _ p id hid
    obtain hold | ⟨rfl, rfl | hold⟩ := (Gossip.mem_update (Set.subset_insert _ _)).mp hid
    · exact .inl hold
    · exact .inr (.inl ⟨memory, rfl, htrue, rfl⟩)
    · exact .inl hold

/-- A packet that is merged is absorbed. -/
lemma Simulates.absorb (h : Simulates exact s g) (hsound : Sound events s) (hsmall : exact → Small events)
    {n : ℕ} {entries : List SyncEntry} {facts : Set Str} (hentries : s.packets[n]? = some entries)
    (hle : brought entries ⊆ facts) (hge : exact → facts ⊆ brought entries)
    (hstep : step s (.pull q n) = some s') :
    Simulates exact s' { g with known := Function.update g.known q (g.known q ∪ facts) } := by
  have hpackets : s'.packets = s.packets := by
    obtain ⟨entries', -, rfl⟩ := Option.map_eq_some_iff.mp hstep
    rfl
  refine h.of_adds hsound hsmall hstep hpackets ?_ ?_ ?_
  · rintro p id (⟨memory', heq, -⟩ | ⟨n', entries', heq, hentries', hid⟩)
    · cases heq
    · cases heq
      obtain rfl := Option.some.inj (hentries.symm.trans hentries')
      rw [Function.update_self]
      exact .inr (hle hid)
  · exact fun p id hid => (Gossip.mem_update Set.subset_union_left).mpr (.inl hid)
  · intro hexact p id hid
    obtain hold | ⟨rfl, hold | hnew⟩ := (Gossip.mem_update Set.subset_union_left).mp hid
    · exact .inl hold
    · exact .inl hold
    · exact .inr (.inr ⟨n, entries, rfl, hentries, hge hexact hnew⟩)

/-- Whatever adds nothing and serves nothing is not seen by the peers that gossip. -/
lemma Simulates.quiet (h : Simulates exact s g) (hsound : Sound events s) (hsmall : exact → Small events)
    (hstep : step s e = some s') (hpackets : s'.packets = s.packets) (hadds : ∀ p id, ¬e.Adds s p id) :
    Simulates exact s' g :=
  h.of_adds hsound hsmall hstep hpackets (fun p id hid => absurd hid (hadds p id)) (fun _ => subset_rfl)
    fun _ _ _ => .inl

/-- What a step does, the peers that gossip do as well. -/
lemma Simulates.step (h : Simulates exact s g) (hsound : Sound events s) (hsmall : exact → Small events)
    (hstep : step s e = some s') :
    ∃ g', Transition.run Gossip.step g e.gossip.toList = some g' ∧ Simulates exact s' g' := by
  cases e with
  | new q i =>
    refine ⟨g, rfl, h.quiet hsound hsmall hstep ?_ fun p id hadds => by simp [Event.Adds] at hadds⟩
    cases hstep
    rfl
  | change q c =>
    by_cases hc : ∃ memory, c = .remember memory ∧ memory.isGroundTruth = true
    · obtain ⟨memory, rfl, htrue⟩ := hc
      exact ⟨_, by rw [Event.gossip, if_pos htrue]; rfl, h.learn hsound hsmall htrue hstep⟩
    · have hnone : (Event.change q c).gossip = none := by
        cases c with
        | remember memory => exact if_neg fun htrue => hc ⟨memory, rfl, htrue⟩
        | updateStrengths => rfl
        | decay => rfl
        | forget => rfl
        | isolate => rfl
      refine ⟨g, by rw [hnone]; rfl, h.quiet hsound hsmall hstep ?_ ?_⟩
      · obtain ⟨table', -, rfl⟩ := Option.map_eq_some_iff.mp hstep
        rfl
      · rintro p id (⟨memory, heq, htrue, -⟩ | ⟨n, entries, heq, -⟩)
        · cases heq
          exact hc ⟨memory, rfl, htrue⟩
        · cases heq
  | serve q newest =>
    cases hstep
    refine ⟨_, rfl, h.known, List.rel_append h.packets (.cons ⟨?_, fun hexact => ?_⟩ .nil)⟩
    · exact (brought_subset_held newest _).trans (h.known q).1
    · exact ((h.known q).2 hexact).trans (hsound.held_subset_brought (hsmall hexact) newest)
  | pull q n =>
    obtain ⟨entries, hentries, -⟩ := Option.map_eq_some_iff.mp hstep
    obtain ⟨facts, hfacts, hle, hge⟩ := h.packet hentries
    refine ⟨_, ?_, h.absorb hsound hsmall hentries hle hge hstep⟩
    simp [Event.gossip, Gossip.step, hfacts]

/-- Every run is one of peers that gossip. -/
lemma exists_gossip (h : run events = some s) :
    ∃ g, Gossip.run (events.filterMap Event.gossip) = some g ∧ Simulates (Small events) s g := by
  refine Transition.run_induction Network.step
    (P := fun events s => ∃ g, Gossip.run (events.filterMap Event.gossip) = some g ∧
      Simulates (Small events) s g) ?_ (fun events s e s' hrun hsim hstep => ?_) h
  · refine ⟨.init, rfl, fun p => ⟨fun id hid => ?_, fun _ => Set.empty_subset _⟩, .nil⟩
    obtain ⟨row, hrow, -⟩ := hid
    cases hrow
  · obtain ⟨g, hg, hsim⟩ := hsim
    obtain ⟨g', hg', hsim'⟩ := (hsim.mono Small.of_append).step (sound_run hrun) Small.of_append hstep
    refine ⟨g', ?_, hsim'⟩
    rw [List.filterMap_append, Gossip.run, Transition.run_append]
    rw [Gossip.run] at hg
    rw [hg, ← hg']
    cases hgossip : e.gossip <;> simp [hgossip]

/-- A peer holds ground truth only if a chain of packets leads from the peer that has remembered it, and it
holds all such ground truth if every memory has its own id and an embedding of 256 floats, and there are at
most 500 of ground truth: no order of events loses any. -/
theorem run_held (h : run events = some s) :
    (∀ p id, id ∈ held (s.vaults p) → ∃ n, Gossip.Reaches (events.filterMap Event.gossip) id n p) ∧
    (Small events → ∀ p id,
      id ∈ held (s.vaults p) ↔ ∃ n, Gossip.Reaches (events.filterMap Event.gossip) id n p) := by
  obtain ⟨g, hg, hsim⟩ := exists_gossip h
  refine ⟨fun p id hid => (Gossip.mem_known_iff hg).mp ((hsim.known p).1 hid), fun hsmall p id => ?_⟩
  rw [← Gossip.mem_known_iff hg]
  exact ⟨fun hid => (hsim.known p).1 hid, fun hid => (hsim.known p).2 hsmall hid⟩

namespace Sample

def preference : Memory where
  id := ['m']
  timestamp := 0
  content := ['c']
  fullEpisode := none
  embedding := [0, 1, 0, 0, 0, 0, 0, 0] ++ List.replicate 1024 0
  appContext := []
  contextKey := none
  isGroundTruth := true
  tags := []

/-- A preference of one peer is pulled by the other one. -/
def pulling : List (Event Bool) :=
  [.new false 0, .change false (.remember preference), .serve false .inserted, .pull true 0]

lemma embeddingLength_preference : Row.embeddingLength preference.embedding = some 256 := by
  decide +kernel

lemma small : Small pulling where
  fresh := by decide +kernel
  embedded := fun p memory' hmemory => by
    simp only [pulling, List.mem_cons, reduceCtorEq, false_or, List.not_mem_nil, or_false,
      Event.change.injEq, Change.remember.injEq] at hmemory
    rw [hmemory.2]
    exact embeddingLength_preference
  few := by decide +kernel

lemma exists_run : ∃ s, run pulling = some s ∧ rowsOf (s.vaults true) = [(entryOf preference).row] := by
  have h : (run pulling).map (fun s => rowsOf (s.vaults true)) = some [(entryOf preference).row] := by
    decide +kernel
  exact Option.map_eq_some_iff.mp h

end Sample

/-- The other peer holds the preference, as a chain of packets leads it there. -/
theorem run_held_pulled : ∃ s, run Sample.pulling = some s ∧ Sample.preference.id ∈ held (s.vaults true) ∧
    ∃ n, Gossip.Reaches (Sample.pulling.filterMap Event.gossip) Sample.preference.id n true := by
  obtain ⟨s, hs, hrows⟩ := Sample.exists_run
  have hheld : Sample.preference.id ∈ held (s.vaults true) := ⟨_, hrows ▸ List.mem_singleton_self _, rfl, rfl⟩
  exact ⟨s, hs, hheld, ((run_held hs).2 Sample.small true Sample.preference.id).mp hheld⟩

/-- Ground truth stays with a peer. -/
lemma held_run (h : run events = some s) (hmore : run (events ++ more) = some s')
    (hembedded : Embedded (events ++ more)) : held (s.vaults p) ⊆ held (s'.vaults p) := by
  induction more using List.reverseRecOn generalizing s' with
  | nil =>
    rw [List.append_nil, h, Option.some.injEq] at hmore
    rw [hmore]
  | append_singleton more e ih =>
    rw [← List.append_assoc] at hmore hembedded
    obtain ⟨t, ht, hstep⟩ := Transition.run_concat step hmore
    have hold := hembedded.of_append
    exact (ih ht hold).trans (held_subset_step (sound_run ht) hold hstep)

/-- In every run, every row is a memory with all that it was remembered with: one of its own peer, or ground
truth. Only ground truth is served, so no other memory leaves its peer. While every embedding has 256 floats,
no vault loses ground truth. -/
theorem run_carries (h : run events = some s) :
    (∀ p, ∀ row ∈ rowsOf (s.vaults p), ∃ q memory, .change q (.remember memory) ∈ events ∧
      (q = p ∨ memory.isGroundTruth = true) ∧ Carries row memory) ∧
    (∀ entries ∈ s.packets, ∀ entry ∈ entries, ∃ q memory, .change q (.remember memory) ∈ events ∧
      memory.isGroundTruth = true ∧ { entry with timestamp := memory.timestamp } = entryOf memory) ∧
    ∀ more s', run (events ++ more) = some s' → Embedded (events ++ more) →
      ∀ p, held (s.vaults p) ⊆ held (s'.vaults p) :=
  ⟨(sound_run h).rows, (sound_run h).packets, fun _ _ hmore hembedded _ => held_run h hmore hembedded⟩

/-- What the other peer holds is the memory that was remembered. -/
theorem run_carries_pulled : ∃ s, run Sample.pulling = some s ∧
    ∃ q memory, Event.change q (.remember memory) ∈ Sample.pulling ∧ (q = true ∨ memory.isGroundTruth = true) ∧
      Carries (entryOf Sample.preference).row memory := by
  obtain ⟨s, hs, hrows⟩ := Sample.exists_run
  exact ⟨s, hs, (run_carries hs).1 true _ (hrows ▸ List.mem_singleton_self _)⟩

end

/-! ### Forgetting -/

section

variable [DecidableEq ι]

/-- How often the vault of the peer has decayed since the memory was last remembered or recalled there. -/
def Event.idle (p : ι) (id : Str) (n : ℕ) : Event ι → ℕ
  | .change q (.remember memory) => if q = p ∧ memory.id = id then 0 else n
  | .change q (.updateStrengths id' _) => if q = p ∧ id' = id then 0 else n
  | .change q .decay => if q = p then n + 1 else n
  | _ => n

def idle (p : ι) (id : Str) (events : List (Event ι)) : ℕ := events.foldl (Event.idle p id) 0

def Event.decays (p : ι) : Event ι → Bool
  | .change q .decay => q = p
  | _ => false

/-- The memory was recalled at the peer. -/
def Recalled (p : ι) (id : Str) (events : List (Event ι)) : Prop :=
  ∃ now, .change p (.updateStrengths id now) ∈ events

/-- How strong a memory is that has been idle at the peer. -/
structure Fades (events : List (Event ι)) (p : ι) (id : Str) (x : ℚ) : Prop where
  upper : x ≤ 2 * (9 / 10) ^ idle p id events
  lower : 1 / 5 * (9 / 10) ^ idle p id events ≤ x
  unused : ¬Recalled p id events → x = (9 / 10) ^ idle p id events

/-- A memory that is not ground truth fades with its peer. -/
def Fading (events : List (Event ι)) (s : State ι) : Prop :=
  ∀ p, ∀ row ∈ rowsOf (s.vaults p), row.isGroundTruth = some false → ∀ id, row.id = some id →
    ∃ x, row.retrievalStrength = some (.fin x) ∧ Fades events p id x

variable {s s' : State ι} {events more : List (Event ι)} {e : Event ι} {p q : ι} {id : Str} {row : Row}
  {memory : Memory} {x : ℚ}

@[simp] lemma idle_concat (p : ι) (id : Str) (events : List (Event ι)) (e : Event ι) :
    idle p id (events ++ [e]) = e.idle p id (idle p id events) := List.foldl_concat ..

omit [DecidableEq ι] in
lemma Recalled.concat (h : Recalled p id events) (e : Event ι) : Recalled p id (events ++ [e]) :=
  h.imp fun _ => List.mem_append_left _

/-- An event that neither recalls the memory nor lets it decay. -/
lemma Fades.quiet (h : Fades events p id x) (hidle : e.idle p id (idle p id events) = idle p id events) :
    Fades (events ++ [e]) p id x where
  upper := by rw [idle_concat, hidle]; exact h.upper
  lower := by rw [idle_concat, hidle]; exact h.lower
  unused := fun hnot => by
    rw [idle_concat, hidle]
    exact h.unused fun hrecalled => hnot (hrecalled.concat e)

lemma Fades.nonneg (h : Fades events p id x) : 0 ≤ x :=
  le_trans (by positivity) h.lower

/-- A new memory. -/
lemma fades_remember (events : List (Event ι)) (p : ι) (memory : Memory) :
    Fades (events ++ [.change p (.remember memory)]) p memory.id 1 := by
  have hidle : idle p memory.id (events ++ [.change p (.remember memory)]) = 0 := by simp [Event.idle]
  refine ⟨?_, ?_, fun _ => ?_⟩
  · rw [hidle]; norm_num
  · rw [hidle]; norm_num
  · rw [hidle, pow_zero]

lemma Fades.recall (h : Fades events p id x) (now : ℤ) :
    Fades (events ++ [.change p (.updateStrengths id now)]) p id (min 2 (x + 1 / 5)) := by
  have hidle : idle p id (events ++ [.change p (.updateStrengths id now)]) = 0 := by simp [Event.idle]
  have hx := h.nonneg
  refine ⟨?_, ?_, fun hnot => absurd ⟨now, List.mem_append_right _ (List.mem_singleton_self _)⟩ hnot⟩
  · rw [hidle, pow_zero, mul_one]
    exact min_le_left ..
  · rw [hidle, pow_zero, mul_one]
    exact le_min (by norm_num) (by linarith)

lemma Fades.decay (h : Fades events p id x) :
    Fades (events ++ [.change p .decay]) p id (x * (9 / 10)) := by
  have hidle : idle p id (events ++ [.change p .decay]) = idle p id events + 1 := by simp [Event.idle]
  refine ⟨?_, ?_, fun hnot => ?_⟩
  · rw [hidle, pow_succ, ← mul_assoc]
    exact mul_le_mul_of_nonneg_right h.upper (by norm_num)
  · rw [hidle, pow_succ, ← mul_assoc]
    exact mul_le_mul_of_nonneg_right h.lower (by norm_num)
  · rw [hidle, pow_succ, h.unused fun hrecalled => hnot (hrecalled.concat _)]

/-- A row that stays fades by the event. -/
lemma Fades.onRow (h : Fades events p id x) (hx : row.retrievalStrength = some (.fin x))
    (hid : row.id = some id) (hprivate : row.isGroundTruth = some false)
    (hnew : ∀ memory, e = .change p (.remember memory) → memory.id ≠ id) :
    ∃ y, (e.onRow p row).retrievalStrength = some (.fin y) ∧ Fades (events ++ [e]) p id y := by
  cases e with
  | new q i => exact ⟨x, hx, h.quiet rfl⟩
  | serve q newest => exact ⟨x, hx, h.quiet rfl⟩
  | pull q n => exact ⟨x, hx, h.quiet rfl⟩
  | change q c =>
    rw [Event.onRow]
    split_ifs with hq
    · subst hq
      cases c with
      | remember memory =>
        refine ⟨x, hx, h.quiet ?_⟩
        rw [Event.idle, if_neg fun heq => hnew memory rfl heq.2]
      | updateStrengths id' now =>
        change ∃ y, (Row.strengthen id' now row).retrievalStrength = some (.fin y) ∧ _
        rw [Row.strengthen, hid]
        split_ifs with hsame
        · obtain rfl := Option.some.inj hsame
          refine ⟨_, ?_, h.recall now⟩
          simp only [hx, Option.map_some, PyFloat.add, PyFloat.min, PyFloat.lt, decide_eq_true_eq, min_def]
          split_ifs <;> grind
        · refine ⟨x, hx, h.quiet ?_⟩
          rw [Event.idle, if_neg fun heq => hsame (congrArg some heq.2.symm)]
      | decay =>
        refine ⟨_, ?_, h.decay⟩
        change (Row.decay row).retrievalStrength = _
        simp only [Row.decay, if_pos hprivate, hx, Option.map_some, PyFloat.mul]
      | forget => exact ⟨x, hx, h.quiet rfl⟩
      | isolate =>
        change ∃ y, (Row.isolate row).retrievalStrength = some (.fin y) ∧ _
        rw [Row.isolate]
        split_ifs
        · exact ⟨x, hx, h.quiet rfl⟩
        · exact ⟨x, hx, h.quiet rfl⟩
    · refine ⟨x, hx, h.quiet ?_⟩
      cases c with
      | remember memory => rw [Event.idle, if_neg fun heq => hq heq.1]
      | updateStrengths id' now => rw [Event.idle, if_neg fun heq => hq heq.1]
      | decay => rw [Event.idle, if_neg hq]
      | forget => rfl
      | isolate => rfl

/-- A memory is not remembered under an id that is there. -/
lemma id_ne_of_remember (hstep : step s (.change p (.remember memory)) = some s')
    (hrow : row ∈ rowsOf (s.vaults p)) : row.id ≠ some memory.id := by
  obtain ⟨table', htable', -⟩ := Option.map_eq_some_iff.mp hstep
  obtain ⟨table, htable, happly⟩ := Option.bind_eq_some_iff.mp htable'
  rw [htable] at hrow
  exact (apply_remember happly).2 row hrow

lemma Fading.step (h : Fading events s) (hsound : Sound events s) (hstep : step s e = some s') :
    Fading (events ++ [e]) s' := by
  intro p row hrow hprivate id hid
  obtain ⟨row, hold, rfl, -⟩ | ⟨memory, rfl, rfl⟩ | ⟨n, entries, entry, -, hentries, hentry, rfl⟩ :=
    mem_step hstep hrow
  · rw [Event.onRow_id] at hid
    rw [Event.onRow_isGroundTruth] at hprivate
    obtain ⟨x, hx, hfades⟩ := h p row hold hprivate id hid
    refine hfades.onRow hx hid hprivate fun memory he heq => ?_
    subst he
    exact id_ne_of_remember hstep hold (heq ▸ hid)
  · obtain rfl : memory.id = id := Option.some.inj hid
    exact ⟨1, rfl, fades_remember events p memory⟩
  · -- what is pulled is ground truth
    obtain ⟨q, memory, -, htrue, heq⟩ := hsound.packets entries (List.mem_of_getElem? hentries) entry hentry
    rw [(carries_entry heq).isGroundTruth, htrue] at hprivate
    cases hprivate

lemma fading_run (h : run events = some s) : Fading events s :=
  Transition.run_induction Network.step (P := Fading) (fun _ _ hrow => (List.not_mem_nil hrow).elim)
    (fun _ _ _ _ hrun hfading hstep => hfading.step (sound_run hrun) hstep) h

/-- The powers between which a memory is forgotten. -/
lemma Fades.idle_le (h : Fades events p id x) (hx : 1 / 10 ≤ x) :
    idle p id events ≤ 28 ∧ (¬Recalled p id events → idle p id events ≤ 21) := by
  constructor
  · by_contra hlong
    have hpow : (9 / 10 : ℚ) ^ idle p id events ≤ (9 / 10) ^ 29 :=
      pow_le_pow_of_le_one (by norm_num) (by norm_num) (by omega)
    have hupper := h.upper
    norm_num at hpow
    linarith
  · intro hunused
    by_contra hlong
    have hpow : (9 / 10 : ℚ) ^ idle p id events ≤ (9 / 10) ^ 22 :=
      pow_le_pow_of_le_one (by norm_num) (by norm_num) (by omega)
    rw [h.unused hunused] at hx
    norm_num at hpow
    linarith

/-- The memory has been idle for too short a time to be forgotten. -/
def Short (p : ι) (id : Str) (events : List (Event ι)) (n : ℕ) : Prop :=
  n ≤ 6 ∨ ¬Recalled p id events ∧ n ≤ 21

lemma Fades.le_of_short (h : Fades events p id x) (hshort : Short p id events (idle p id events)) :
    1 / 10 ≤ x := by
  obtain hn | ⟨hunused, hn⟩ := hshort
  · have hpow : (9 / 10 : ℚ) ^ 6 ≤ (9 / 10) ^ idle p id events :=
      pow_le_pow_of_le_one (by norm_num) (by norm_num) hn
    have hlower := h.lower
    norm_num at hpow
    linarith
  · have hpow : (9 / 10 : ℚ) ^ 21 ≤ (9 / 10) ^ idle p id events :=
      pow_le_pow_of_le_one (by norm_num) (by norm_num) hn
    rw [h.unused hunused]
    norm_num at hpow
    linarith

/-- The vault of the peer has decayed so often. -/
def decays (p : ι) (events : List (Event ι)) : ℕ := events.countP (Event.decays p)

lemma idle_append_le (p : ι) (id : Str) (events more : List (Event ι)) :
    idle p id (events ++ more) ≤ idle p id events + decays p more := by
  induction more using List.reverseRecOn with
  | nil => simp [decays]
  | append_singleton more e ih =>
    have hstep : e.idle p id (idle p id (events ++ more)) ≤
        idle p id (events ++ more) + decays p [e] := by
      cases e with
      | change q c =>
        cases c with
        | remember memory =>
          rw [Event.idle]
          split_ifs <;> omega
        | updateStrengths id' now =>
          rw [Event.idle]
          split_ifs <;> omega
        | decay =>
          rw [Event.idle, decays, List.countP_singleton, Event.decays]
          by_cases hq : q = p <;> simp [hq]
        | forget => exact Nat.le_add_right ..
        | isolate => exact Nat.le_add_right ..
      | new => exact Nat.le_add_right ..
      | serve => exact Nat.le_add_right ..
      | pull => exact Nat.le_add_right ..
    have hsum : decays p (more ++ [e]) = decays p more + decays p [e] := List.countP_append
    rw [← List.append_assoc, idle_concat, hsum]
    omega

lemma Short.of_append (h : Short p id (events ++ more ++ [e]) (idle p id events + decays p (more ++ [e]))) :
    Short p id (events ++ more) (idle p id events + decays p more) := by
  have hle : decays p more ≤ decays p (more ++ [e]) := by
    rw [decays, decays, List.countP_append]
    exact Nat.le_add_right ..
  refine h.imp (fun hn => by omega) (And.imp (fun hunused hrecalled => hunused ?_) fun hn => by omega)
  exact hrecalled.concat e

/-- A memory that has been idle for a short time is not forgotten. -/
lemma exists_of_short (h : run events = some s) (hrow : row ∈ rowsOf (s.vaults p)) (hid : row.id = some id)
    (hprivate : row.isGroundTruth = some false) (hmore : run (events ++ more) = some s')
    (hembedded : Embedded (events ++ more))
    (hshort : Short p id (events ++ more) (idle p id events + decays p more)) :
    ∃ row' ∈ rowsOf (s'.vaults p), row'.id = some id ∧ row'.isGroundTruth = some false := by
  induction more using List.reverseRecOn generalizing s' with
  | nil =>
    rw [List.append_nil, h, Option.some.injEq] at hmore
    exact ⟨row, hmore ▸ hrow, hid, hprivate⟩
  | append_singleton more e ih =>
    rw [← List.append_assoc] at hmore hembedded hshort
    obtain ⟨t, ht, hstep⟩ := Transition.run_concat step hmore
    have hold := hshort.of_append
    obtain ⟨row', hrow', hid', hprivate'⟩ := ih ht hembedded.of_append hold
    obtain ⟨x, hx, hfades⟩ := fading_run ht p row' hrow' hprivate' id hid'
    have hidle := idle_append_le p id events more
    have hstrong : 1 / 10 ≤ x :=
      hfades.le_of_short (hold.imp (fun hn => by omega) (And.imp_right fun hn => by omega))
    refine ⟨_, onRow_mem_step hstep hrow' (fun _ => ?_) ((sound_run ht).mismatch hembedded.of_append), ?_, ?_⟩
    · simp only [Row.forgotten, hx, Option.any_some, PyFloat.lt, Bool.and_eq_false_iff, decide_eq_false_iff_not]
      exact .inl (not_lt.mpr hstrong)
    · rwa [Event.onRow_id]
    · rwa [Event.onRow_isGroundTruth]

/-- Whenever forgotten memories have just been removed, a memory that is still there and is not ground truth
has been idle for at most 28 decays, and for at most 21 if it was never recalled. A memory that is there
stays while it has been idle for at most 6 decays, or 21 if it is never recalled. -/
theorem run_forgets (h : run events = some s) (hrow : row ∈ rowsOf (s.vaults p)) (hid : row.id = some id)
    (hprivate : row.isGroundTruth = some false) :
    (∀ old, events = old ++ [.change p .forget] →
      idle p id events ≤ 28 ∧ (¬Recalled p id events → idle p id events ≤ 21)) ∧
    ∀ more s', run (events ++ more) = some s' → Embedded (events ++ more) →
      Short p id (events ++ more) (idle p id events + decays p more) →
      ∃ row' ∈ rowsOf (s'.vaults p), row'.id = some id ∧ row'.isGroundTruth = some false := by
  refine ⟨fun old heq => ?_, fun more s' hmore hembedded hshort =>
    exists_of_short h hrow hid hprivate hmore hembedded hshort⟩
  obtain ⟨x, hx, hfades⟩ := fading_run h p row hrow hprivate id hid
  refine hfades.idle_le ?_
  rw [heq] at h
  obtain ⟨t, ht, hstep⟩ := Transition.run_concat step h
  -- the row has just been kept
  obtain ⟨row', hold, rfl, hkept⟩ | ⟨memory, hforget, -⟩ | ⟨n, entries, entry, hforget, -⟩ := mem_step hstep hrow
  · have hsame : Event.onRow p (.change p .forget) row' = row' := by
      rw [Event.onRow, if_pos rfl]
      rfl
    rw [hsame] at hx hprivate
    have hstays := hkept rfl
    simp only [Row.forgotten, hx, hprivate, Option.any_some, PyFloat.lt, decide_true, Bool.and_true,
      decide_eq_false_iff_not, not_lt] at hstays
    exact hstays
  · cases hforget
  · cases hforget

namespace Sample

def note : Memory := { preference with isGroundTruth := false }

/-- A memory decays once. -/
def decaying : List (Event Bool) :=
  [.new false 0, .change false (.remember note), .change false .decay, .change false .forget]

end Sample

/-- The memory has decayed once, and stays. -/
theorem run_forgets_note : ∃ s, run Sample.decaying = some s ∧ idle false Sample.note.id Sample.decaying = 1 ∧
    ∃ row ∈ rowsOf (s.vaults false), row.id = some Sample.note.id := by
  have h : (run Sample.decaying).map (fun s => rowsOf (s.vaults false)) =
      some [{ Sample.note.row with retrievalStrength := some (.fin (9 / 10)) }] := by
    decide +kernel
  obtain ⟨s, hs, hrows⟩ := Option.map_eq_some_iff.mp h
  have hembedded : Embedded Sample.decaying := fun p memory' hmemory => by
    simp only [Sample.decaying, List.mem_cons, reduceCtorEq, false_or, List.not_mem_nil, or_false,
      Event.change.injEq, Change.remember.injEq, and_false] at hmemory
    rw [hmemory.2]
    exact Sample.embeddingLength_preference
  have hidle : idle false Sample.note.id Sample.decaying = 1 := by decide
  obtain ⟨row, hrow, hid, -⟩ := (run_forgets hs (hrows ▸ List.mem_singleton_self _) rfl rfl).2 [] s
    (by rw [List.append_nil, hs]) (by rwa [List.append_nil]) (.inl (by rw [hidle]; decide))
  exact ⟨s, hs, hidle, row, hrow, hid⟩

end

end AxiomGrid.Phantom.Network

import AxiomGrid.Lib.Base64
import AxiomGrid.Lib.Hex
import AxiomGrid.Phantom.SemanticMemory
import Mathlib.Data.List.Forall2

/-!
# Memories in a file

`KpxExporter` of `phantom-core/src/kpx_export.rs`. The export fetches the full episodes and leaves them
out, an empty embedding is written like none, and the import counts an entry whether it was inserted or
not. So a table comes back if it has nothing of that kind, and its second import returns 0 only if the
table is empty.
-/

namespace AxiomGrid.Phantom.Kpx

open SemanticMemory

structure KpxManifest where
  version : Str
  createdAt : ℤ
  kairoVersion : Str
  episodeCount : ℕ
  description : Str
  machineIdHash : Str
  deriving DecidableEq

structure KpxEpisode where
  id : Str
  timestamp : ℤ
  content : Str
  appContext : Str
  contextKey : Str
  isGroundTruth : Bool
  tags : Str
  storageStrength : PyFloat
  embeddingB64 : String
  deriving DecidableEq

structure KpxFile where
  manifest : KpxManifest
  episodes : List KpxEpisode
  deriving DecidableEq

/-- The variables of the environment and the clock. -/
structure Env where
  computername : Option Str
  hostname : Option Str
  now : ℤ

/-- `serde_json` and `base64`, with how a number is read that was written. -/
structure Crates where
  toStringPretty : KpxFile → Str
  fromStr : Str → Option KpxFile
  reread : PyFloat → Option PyFloat
  decode : String → Option Bytes

variable (crates : Crates) (env : Env) (newest : Newest) (description : Str)

/-! ### The export -/

def machineIdHash : Str :=
  let id := (env.computername.orElse fun _ => env.hostname).getD "unknown".toList
  (sha256 (utf8 (String.ofList id))).hex.toList.take 16

/-- An embedding as text, the empty one for NULL. -/
def embeddingText (embedding : Option Bytes) : String := (embedding.map Base64.encode).getD ""

/-- The episode of a row, if the row can be read. -/
def toEpisode (row : Row) : Option KpxEpisode := do
  let id ← row.id
  let timestamp ← row.timestamp
  let content ← row.content
  let _full ← row.fullEpisode
  return {
    id, timestamp, content
    appContext := ← row.appContext
    contextKey := ← row.contextKey
    isGroundTruth := ← row.isGroundTruth
    tags := ← row.tags
    storageStrength := ← row.storageStrength
    embeddingB64 := embeddingText row.embedding }

/-- What is exported of a table. -/
def exportFile (table : Table) : KpxFile :=
  let episodes := (newest.orderBy table.rows).filterMap toEpisode
  { episodes
    manifest := {
      version := "1.0".toList
      createdAt := env.now
      kairoVersion := "0.3.0".toList
      episodeCount := episodes.length
      description
      machineIdHash := machineIdHash env } }

/-- `KpxExporter::export`: the text of the file, and the number of episodes in it. -/
def exportKpx (table : Table) : Str × ℕ :=
  let kpx := exportFile env newest description table
  (crates.toStringPretty kpx, kpx.episodes.length)

/-! ### The import -/

def embeddingBlob (text : String) : Option Bytes := if text = "" then none else crates.decode text

/-- The row that is inserted for an episode. -/
def episodeRow (ep : KpxEpisode) : Row where
  id := some ep.id
  timestamp := some ep.timestamp
  content := some ep.content
  fullEpisode := some []
  embedding := embeddingBlob crates ep.embeddingB64
  appContext := some ep.appContext
  contextKey := some ep.contextKey
  isGroundTruth := some ep.isGroundTruth
  storageStrength := some ep.storageStrength
  tags := some ep.tags

/-- The loop of the import: each turn counts. -/
def importEpisodes : List KpxEpisode → Table × ℕ → Table × ℕ
  | [], state => state
  | ep :: eps, (table, imported) =>
    importEpisodes eps (table.insertAll [episodeRow crates ep], imported + 1)

/-- `KpxExporter::import`; `none` where the file cannot be read. -/
def importKpx (content : Str) (table : Table) : Option (Table × ℕ) := do
  let kpx ← crates.fromStr content
  return importEpisodes crates kpx.episodes (table, 0)

@[simp] lemma importEpisodes_eq (eps : List KpxEpisode) (table : Table) (imported : ℕ) :
    importEpisodes crates eps (table, imported) =
      (table.insertAll (eps.map (episodeRow crates)), imported + eps.length) := by
  induction eps generalizing table imported with
  | nil => rfl
  | cons ep eps ih =>
    rw [importEpisodes, ih, List.length_cons, Nat.add_right_comm, Nat.add_assoc]
    rfl

/-! ### Rows and episodes -/

/-- Every column but the embedding has a value. -/
structure NotNull (row : Row) : Prop where
  id : row.id.isSome
  timestamp : row.timestamp.isSome
  content : row.content.isSome
  fullEpisode : row.fullEpisode.isSome
  appContext : row.appContext.isSome
  contextKey : row.contextKey.isSome
  isGroundTruth : row.isGroundTruth.isSome
  storageStrength : row.storageStrength.isSome
  retrievalStrength : row.retrievalStrength.isSome
  tags : row.tags.isSome

/-- The columns of a row agree with those of another one, save for the retrieval strength. -/
def Restores (row' row : Row) : Prop := { row' with retrievalStrength := row.retrievalStrength } = row

/-- A row that can be read is what its episode says, with a full episode. -/
lemma row_eq_of_toEpisode {row : Row} {ep : KpxEpisode} (h : toEpisode row = some ep) :
    (∃ full, row = { episodeRow crates ep with
      fullEpisode := some full
      embedding := row.embedding
      retrievalStrength := row.retrievalStrength }) ∧
    ep.embeddingB64 = embeddingText row.embedding := by
  obtain ⟨id, timestamp, content, full, embedding, app, key, flag, strength, retrieval, tags⟩ := row
  simp only [toEpisode, Option.bind_eq_bind, Option.bind_eq_some_iff, Option.pure_def,
    Option.some.injEq] at h
  obtain ⟨_, rfl, _, rfl, _, rfl, full, rfl, _, rfl, _, rfl, _, rfl, _, rfl, _, rfl, rfl⟩ := h
  exact ⟨⟨full, rfl⟩, rfl⟩

lemma NotNull.exists_toEpisode {row : Row} (h : NotNull row) : ∃ ep, toEpisode row = some ep := by
  obtain ⟨id, hid⟩ := Option.isSome_iff_exists.mp h.id
  obtain ⟨timestamp, htimestamp⟩ := Option.isSome_iff_exists.mp h.timestamp
  obtain ⟨content, hcontent⟩ := Option.isSome_iff_exists.mp h.content
  obtain ⟨full, hfull⟩ := Option.isSome_iff_exists.mp h.fullEpisode
  obtain ⟨app, happ⟩ := Option.isSome_iff_exists.mp h.appContext
  obtain ⟨key, hkey⟩ := Option.isSome_iff_exists.mp h.contextKey
  obtain ⟨flag, hflag⟩ := Option.isSome_iff_exists.mp h.isGroundTruth
  obtain ⟨strength, hstrength⟩ := Option.isSome_iff_exists.mp h.storageStrength
  obtain ⟨tags, htags⟩ := Option.isSome_iff_exists.mp h.tags
  simp only [toEpisode, hid, htimestamp, hcontent, hfull, happ, hkey, hflag, hstrength, htags]
  exact ⟨_, rfl⟩

lemma id_of_toEpisode {row : Row} {ep : KpxEpisode} (h : toEpisode row = some ep) :
    row.id = some ep.id := by
  simp only [toEpisode, Option.bind_eq_bind, Option.bind_eq_some_iff, Option.pure_def,
    Option.some.injEq] at h
  obtain ⟨id, hid, -, -, -, -, -, -, -, -, -, -, -, -, -, -, -, -, rfl⟩ := h
  exact hid

/-- How an episode is read that was written. -/
def Reread (ep ep' : KpxEpisode) : Prop :=
  ∃ strength, crates.reread ep.storageStrength = some strength ∧
    ep' = { ep with storageStrength := strength }

/-- A file is read as it was written, save for its numbers, and a blob that was encoded is decoded. -/
structure Crates.Reads (kpx : KpxFile) : Prop where
  fromStr : ∀ kpx', crates.fromStr (crates.toStringPretty kpx) = some kpx' ↔
    kpx'.manifest = kpx.manifest ∧ List.Forall₂ (Reread crates) kpx.episodes kpx'.episodes
  decode : ∀ bs, crates.decode (Base64.encode bs) = some bs

variable {crates}

/-- The empty embedding is read as none. -/
lemma embeddingBlob_eq_iff (hdecode : ∀ bs, crates.decode (Base64.encode bs) = some bs)
    (embedding : Option Bytes) :
    embeddingBlob crates (embeddingText embedding) = embedding ↔ embedding ≠ some [] := by
  cases embedding with
  | none => exact iff_of_true rfl (Option.some_ne_none [] ·.symm)
  | some bs =>
    simp only [embeddingBlob, embeddingText, Option.map_some, Option.getD_some,
      Base64.encode_eq_empty_iff, hdecode, Ne, Option.some.injEq]
    by_cases h : bs = []
    · simp [h]
    · simp [h]

/-- The row of an episode that was reread is the one it was read from if nothing was lost. -/
lemma restores_iff (hdecode : ∀ bs, crates.decode (Base64.encode bs) = some bs) {row : Row}
    {ep ep' : KpxEpisode} (h : toEpisode row = some ep) (hep : Reread crates ep ep') :
    Restores (episodeRow crates ep') row ↔
      row.fullEpisode = some [] ∧ row.embedding ≠ some [] ∧
        ∀ strength, row.storageStrength = some strength → crates.reread strength = some strength := by
  obtain ⟨⟨full, hrow⟩, htext⟩ := row_eq_of_toEpisode crates h
  obtain ⟨strength, hreread, rfl⟩ := hep
  rw [← embeddingBlob_eq_iff hdecode, ← htext, hrow]
  simp only [Restores, episodeRow, Row.mk.injEq, Option.some.injEq, forall_eq', hreread, true_and,
    and_true]
  exact and_congr_left' eq_comm

/-! ### What is imported of an export -/

section

variable {env newest description} {table : Table} {eps : List KpxEpisode}

/-- The ids of the rows that are inserted are those of the table. -/
lemma ids_perm (hrows : ∀ row ∈ table.rows, NotNull row)
    (heps : List.Forall₂ (Reread crates) (exportFile env newest description table).episodes eps) :
    ((eps.map (episodeRow crates)).filterMap Row.id).Perm (table.rows.filterMap Row.id) := by
  have hread : (eps.map (episodeRow crates)).filterMap Row.id =
      (exportFile env newest description table).episodes.map KpxEpisode.id := by
    generalize (exportFile env newest description table).episodes = written at heps
    induction heps with
    | nil => rfl
    | cons hep _ ih =>
      obtain ⟨strength, -, rfl⟩ := hep
      exact congrArg (_ :: ·) ih
  rw [hread, exportFile, List.map_filterMap]
  refine List.Perm.trans ?_ ((newest.perm table.rows).filterMap Row.id)
  rw [List.filterMap_congr fun row hrow => ?_]
  obtain ⟨ep, hep⟩ := (hrows row ((newest.perm _).subset hrow)).exists_toEpisode
  rw [hep, id_of_toEpisode hep, Option.map_some]

lemma length_eps (hrows : ∀ row ∈ table.rows, NotNull row)
    (heps : List.Forall₂ (Reread crates) (exportFile env newest description table).episodes eps) :
    eps.length = table.rows.length := by
  rw [← heps.length_eq, exportFile, ← (newest.perm table.rows).length_eq, List.filterMap_length_eq_length]
  intro row hrow
  obtain ⟨ep, hep⟩ := (hrows row ((newest.perm _).subset hrow)).exists_toEpisode
  rw [hep, Option.isSome_some]

/-- No row of an export clashes with another one, and one clashes with a row of the target if it has its
id. -/
lemma distinct_append_iff (hrows : ∀ row ∈ table.rows, NotNull row)
    (heps : List.Forall₂ (Reread crates) (exportFile env newest description table).episodes eps)
    (target : Table) :
    UniqueRows.Distinct sameId (target.rows ++ eps.map (episodeRow crates)) ↔
      ∀ row ∈ table.rows, ∀ r ∈ target.rows, r.id ≠ row.id := by
  have hids := ids_perm hrows heps
  rw [UniqueRows.distinct_byKey_iff, List.filterMap_append, List.nodup_append,
    hids.nodup_iff]
  have htarget := UniqueRows.distinct_byKey_iff.mp target.distinct
  have htable := UniqueRows.distinct_byKey_iff.mp table.distinct
  constructor
  · rintro ⟨-, -, hne⟩ row hrow r hr heq
    obtain ⟨id, hid⟩ := Option.isSome_iff_exists.mp (hrows row hrow).id
    have hmem := hids.mem_iff.mpr (List.mem_filterMap.mpr ⟨row, hrow, hid⟩)
    exact hne id (List.mem_filterMap.mpr ⟨r, hr, heq.trans hid⟩) id hmem rfl
  · refine fun hne => ⟨htarget, htable, fun id hid id' hid' heq => ?_⟩
    obtain ⟨r, hr, hid⟩ := List.mem_filterMap.mp hid
    obtain ⟨row, hrow, hid'⟩ := List.mem_filterMap.mp (hids.mem_iff.mp hid')
    exact hne row hrow r hr (by rw [hid, hid', heq])

/-- An import counts the rows that it adds if no id of the export is there already. -/
lemma length_insertAll_iff (hrows : ∀ row ∈ table.rows, NotNull row)
    (heps : List.Forall₂ (Reread crates) (exportFile env newest description table).episodes eps)
    (target : Table) :
    (target.insertAll (eps.map (episodeRow crates))).rows.length = target.rows.length + eps.length ↔
      ∀ row ∈ table.rows, ∀ r ∈ target.rows, r.id ≠ row.id := by
  rw [← distinct_append_iff hrows heps, ← UniqueRows.length_insertAll_eq_iff target.distinct,
    List.length_map]
  rfl

/-- An empty table takes all rows of an export. -/
lemma insertAll_empty (hrows : ∀ row ∈ table.rows, NotNull row)
    (heps : List.Forall₂ (Reread crates) (exportFile env newest description table).episodes eps) :
    (Table.empty.insertAll (eps.map (episodeRow crates))).rows = eps.map (episodeRow crates) := by
  refine UniqueRows.insertAll_nil_of_distinct ?_
  exact (distinct_append_iff hrows heps Table.empty).mpr fun _ _ r hr => absurd hr List.not_mem_nil

/-- Each row has its episode in the export, and that one is reread. -/
lemma exists_reread (hrows : ∀ row ∈ table.rows, NotNull row)
    (heps : List.Forall₂ (Reread crates) (exportFile env newest description table).episodes eps)
    {row : Row} (hrow : row ∈ table.rows) :
    ∃ ep ep', toEpisode row = some ep ∧ Reread crates ep ep' ∧ ep' ∈ eps := by
  obtain ⟨ep, hep⟩ := (hrows row hrow).exists_toEpisode
  have hmem : ep ∈ (exportFile env newest description table).episodes :=
    List.mem_filterMap.mpr ⟨row, (newest.perm _).mem_iff.mpr hrow, hep⟩
  refine ⟨ep, ?_⟩
  generalize (exportFile env newest description table).episodes = written at heps hmem
  induction heps with
  | nil => cases hmem
  | cons hhead _ ih =>
    obtain rfl | hmem := List.mem_cons.mp hmem
    · exact ⟨_, hep, hhead, List.mem_cons_self⟩
    · obtain ⟨ep', hread, hreread, hmem'⟩ := ih hmem
      exact ⟨ep', hread, hreread, List.mem_cons_of_mem _ hmem'⟩

end

/-! ### Export and import -/

lemma importKpx_eq_some_iff {content : Str} {target : Table} {result : Table × ℕ} :
    importKpx crates content target = some result ↔
      ∃ kpx, crates.fromStr content = some kpx ∧
        result = (target.insertAll (kpx.episodes.map (episodeRow crates)), kpx.episodes.length) := by
  simp only [importKpx, Option.bind_eq_bind, Option.bind_eq_some_iff, Option.pure_def, Option.some.injEq,
    importEpisodes_eq, Nat.zero_add]
  exact exists_congr fun kpx => and_congr_right' eq_comm

variable (crates)

/-- Every row of the table is there again. -/
def ComesBack (table table' : Table) : Prop := ∀ row ∈ table.rows, ∃ row' ∈ table'.rows, Restores row' row

/-- An empty table takes the rows of the export, as many as the import says, and the second import says
that it took none. -/
def RoundTrip (table : Table) : Prop :=
  ∃ table' n, importKpx crates (exportKpx crates env newest description table).1 Table.empty =
      some (table', n) ∧
    ComesBack table table' ∧ n = table'.rows.length ∧
    ∃ table'', importKpx crates (exportKpx crates env newest description table).1 table' =
      some (table'', 0)

/-- A row that neither export nor import takes anything from. -/
def Portable (row : Row) : Prop :=
  row.fullEpisode = some [] ∧ row.embedding ≠ some [] ∧
    ∀ strength, row.storageStrength = some strength → crates.reread strength = some strength

variable {crates env newest description} {table : Table}

lemma comesBack_iff (hrows : ∀ row ∈ table.rows, NotNull row)
    (hreads : crates.Reads (exportFile env newest description table)) :
    (∃ table' n, importKpx crates (exportKpx crates env newest description table).1 Table.empty =
        some (table', n) ∧ ComesBack table table') ↔
      ∀ row ∈ table.rows, Portable crates row := by
  constructor
  · rintro ⟨table', n, himport, hback⟩ row hrow
    obtain ⟨kpx, hkpx, hresult⟩ := importKpx_eq_some_iff.mp himport
    obtain ⟨rfl, rfl⟩ := Prod.mk.inj hresult
    have heps := ((hreads.fromStr kpx).mp hkpx).2
    obtain ⟨row', hrow', hrestores⟩ := hback row hrow
    rw [insertAll_empty hrows heps] at hrow'
    obtain ⟨ep, ep', hep, hreread, hmem⟩ := exists_reread hrows heps hrow
    -- the row that it comes back as is the one of its own episode
    have hself : row' = episodeRow crates ep' := by
      have hdistinct : UniqueRows.Distinct sameId (kpx.episodes.map (episodeRow crates)) :=
        insertAll_empty hrows heps ▸ (Table.empty.insertAll _).distinct
      refine hdistinct.eq_of_key hrow' (List.mem_map_of_mem hmem) (k := ep.id) ?_ ?_
      · rw [← id_of_toEpisode hep]
        exact (congrArg Row.id hrestores :)
      · obtain ⟨strength, -, rfl⟩ := hreread
        rfl
    exact (restores_iff hreads.decode hep hreread).mp (hself ▸ hrestores)
  · intro hall
    have hsame : List.Forall₂ (Reread crates) (exportFile env newest description table).episodes
        (exportFile env newest description table).episodes := by
      refine List.forall₂_same.mpr fun ep hep => ?_
      obtain ⟨row, hrow, hread⟩ := List.mem_filterMap.mp hep
      obtain ⟨⟨full, hcolumns⟩, -⟩ := row_eq_of_toEpisode crates hread
      have hstrength := (hall row ((newest.perm _).subset hrow)).2.2 ep.storageStrength
        (by rw [hcolumns]; rfl)
      exact ⟨_, hstrength, rfl⟩
    refine ⟨_, _, importKpx_eq_some_iff.mpr ⟨_, (hreads.fromStr _).mpr ⟨rfl, hsame⟩, rfl⟩, ?_⟩
    intro row hrow
    obtain ⟨ep, ep', hep, hreread, hmem⟩ := exists_reread hrows hsame hrow
    refine ⟨episodeRow crates ep', ?_, (restores_iff hreads.decode hep hreread).mpr (hall row hrow)⟩
    rw [insertAll_empty hrows hsame]
    exact List.mem_map_of_mem hmem

lemma imported_eq_iff (hrows : ∀ row ∈ table.rows, NotNull row)
    (hreads : crates.Reads (exportFile env newest description table)) {target target' : Table} {n : ℕ}
    (h : importKpx crates (exportKpx crates env newest description table).1 target = some (target', n)) :
    target'.rows.length = target.rows.length + n ↔
      ∀ row ∈ table.rows, ∀ r ∈ target.rows, r.id ≠ row.id := by
  obtain ⟨kpx, hkpx, hresult⟩ := importKpx_eq_some_iff.mp h
  obtain ⟨rfl, rfl⟩ := Prod.mk.inj hresult
  exact length_insertAll_iff hrows ((hreads.fromStr kpx).mp hkpx).2 target

/-- Whatever the target holds, the import returns the number of rows of the table. -/
lemma imported_eq (hrows : ∀ row ∈ table.rows, NotNull row)
    (hreads : crates.Reads (exportFile env newest description table)) {target target' : Table} {n : ℕ}
    (h : importKpx crates (exportKpx crates env newest description table).1 target = some (target', n)) :
    n = table.rows.length := by
  obtain ⟨kpx, hkpx, hresult⟩ := importKpx_eq_some_iff.mp h
  obtain ⟨rfl, rfl⟩ := Prod.mk.inj hresult
  exact length_eps hrows ((hreads.fromStr kpx).mp hkpx).2

/-- Export and import keep to their contract only for the empty table. The rows of another one come back
exactly if their full episodes are empty, no embedding is empty and the strengths are reread. The number
of rows that an import adds is what it returns exactly if no id is in the target already. -/
theorem roundTrip_iff (hrows : ∀ row ∈ table.rows, NotNull row)
    (hreads : crates.Reads (exportFile env newest description table)) :
    (RoundTrip crates env newest description table ↔ table.rows = []) ∧
    ((∃ table' n, importKpx crates (exportKpx crates env newest description table).1 Table.empty =
        some (table', n) ∧ ComesBack table table') ↔
      ∀ row ∈ table.rows, Portable crates row) ∧
    ∀ target target' n,
      importKpx crates (exportKpx crates env newest description table).1 target = some (target', n) →
      (target'.rows.length = target.rows.length + n ↔
        ∀ row ∈ table.rows, ∀ r ∈ target.rows, r.id ≠ row.id) := by
  refine ⟨?_, comesBack_iff hrows hreads, fun target target' n => imported_eq_iff hrows hreads⟩
  constructor
  · rintro ⟨table', n, -, -, -, table'', hagain⟩
    exact List.length_eq_zero_iff.mp (imported_eq hrows hreads hagain).symm
  · intro hempty
    obtain ⟨table', n, himport, hback⟩ := (comesBack_iff hrows hreads).mpr (by simp [hempty])
    refine ⟨table', n, himport, hback, ?_, ?_⟩
    · have hadded := (imported_eq_iff hrows hreads himport).mpr (by simp [hempty])
      rw [hadded]
      exact (Nat.zero_add n).symm
    · obtain ⟨kpx, hkpx, -⟩ := importKpx_eq_some_iff.mp himport
      have hagain : importKpx crates (exportKpx crates env newest description table).1 table' =
          some (_, kpx.episodes.length) := importKpx_eq_some_iff.mpr ⟨kpx, hkpx, rfl⟩
      have hzero := imported_eq hrows hreads hagain
      rw [hempty] at hzero
      exact ⟨_, hagain.trans (congrArg (fun k => some (_, k)) hzero)⟩

namespace Sample

/-- A machine without a name. -/
def unnamed : Env := ⟨none, none, 1700000000⟩

/-- A memory with the full episode. -/
def memory (full : Str) : Row where
  id := some "ep-1".toList
  timestamp := some 1690000000
  content := some "Prefer bullets".toList
  fullEpisode := some full
  appContext := some "Word".toList
  contextKey := some "format".toList
  tags := some "style".toList

/-- A table of one memory. -/
def one (full : Str) : Table := ⟨[memory full], List.pairwise_singleton _ _⟩

/-- What is exported of it, whatever its full episode is. -/
def file : KpxFile := exportFile unnamed .inserted "backup".toList (one [])

def text : Str :=
  ("\x7b\n  \"manifest\": \x7b\n    \"version\": \"1.0\",\n    \"created_at\": 1700000000,\n" ++
    "    \"kairo_version\": \"0.3.0\",\n    \"episode_count\": 1,\n    \"description\": \"backup\",\n" ++
    "    \"machine_id_hash\": \"b23a6a8439c0dde5\"\n  \x7d,\n  \"episodes\": [\n    \x7b\n" ++
    "      \"id\": \"ep-1\",\n      \"timestamp\": 1690000000,\n" ++
    "      \"content\": \"Prefer bullets\",\n      \"app_context\": \"Word\",\n" ++
    "      \"context_key\": \"format\",\n      \"is_ground_truth\": false,\n" ++
    "      \"tags\": \"style\",\n      \"storage_strength\": 1.0,\n" ++
    "      \"embedding_b64\": \"\"\n    \x7d\n  ]\n\x7d").toList

/-- The crates at this file. -/
def json : Crates where
  toStringPretty _ := text
  fromStr content := if content = text then some file else none
  reread := some
  decode := Base64.decode?

lemma notNull (full : Str) : ∀ r ∈ (one full).rows, NotNull r := by
  intro r hr
  obtain rfl := List.mem_singleton.mp hr
  exact ⟨rfl, rfl, rfl, rfl, rfl, rfl, rfl, rfl, rfl, rfl⟩

lemma reads (full : Str) :
    json.Reads (exportFile unnamed .inserted "backup".toList (one full)) where
  decode := Base64.decode?_encode
  fromStr kpx := by
    have horder : ∀ full, Newest.inserted.orderBy (one full).rows = [memory full] :=
      fun full => List.perm_singleton.mp (Newest.inserted.perm _)
    have hfile : exportFile unnamed .inserted "backup".toList (one full) = file := by
      rw [file, exportFile, exportFile, horder, horder]
      rfl
    have hself : json.fromStr (json.toStringPretty file) = some file := by
      simp only [json, if_true]
    have hreread : Reread json = Eq := by
      ext ep ep'
      simp only [Reread, json, Option.some.injEq, exists_eq_left']
      exact eq_comm
    rw [hfile, hself, hreread, List.forall₂_eq_eq_eq, Option.some.injEq]
    constructor
    · rintro rfl
      exact ⟨rfl, rfl⟩
    · obtain ⟨manifest, episodes⟩ := kpx
      rintro ⟨rfl, rfl⟩
      rfl

end Sample

theorem roundTrip_iff_one :
    ∃ table' n, importKpx Sample.json
        (exportKpx Sample.json Sample.unnamed .inserted "backup".toList (Sample.one [])).1 Table.empty =
          some (table', n) ∧ ComesBack (Sample.one []) table' := by
  refine (roundTrip_iff (Sample.notNull []) (Sample.reads [])).2.1.mpr fun row hrow => ?_
  obtain rfl := List.mem_singleton.mp hrow
  exact ⟨rfl, (Option.some_ne_none [] ·.symm), fun strength _ => rfl⟩

/-- A memory with a full episode comes back without it, and the second import counts it again. -/
theorem full_episode_lost :
    ¬RoundTrip Sample.json Sample.unnamed .inserted "backup".toList (Sample.one "User: hi".toList) ∧
    ¬∃ table' n, importKpx Sample.json
        (exportKpx Sample.json Sample.unnamed .inserted "backup".toList
          (Sample.one "User: hi".toList)).1 Table.empty = some (table', n) ∧
        ComesBack (Sample.one "User: hi".toList) table' := by
  have hnotNull := Sample.notNull "User: hi".toList
  have hreads := Sample.reads "User: hi".toList
  constructor
  · rintro ⟨table', n, -, -, -, table'', hagain⟩
    exact absurd (imported_eq hnotNull hreads hagain) (by decide)
  · rw [comesBack_iff hnotNull hreads]
    intro hall
    exact absurd (hall _ (List.mem_singleton_self _)).1 (by decide)

end AxiomGrid.Phantom.Kpx

import AxiomGrid.Memory.Store

/-!
# Reading records back

What a write followed by a read makes of a record. A document, a page, a chunk, an entity, a model
version and a user come back as they were written. An extraction loses the fields that have no column,
and a confidence that is NaN and a payload with tuples or other keys than strings come back as
something else.
-/

namespace AxiomGrid.Memory

open Pipeline (BBox Page Extraction insertOrReplace)

variable {Time : Type} {env : Env Time} {store store' : Store}

/-! ### Tables -/

section

variable {ρ κ : Type} [DecidableEq κ] {key : ρ → κ}

lemma fetchone_insertOrReplace (rows : List ρ) (row : ρ) (k : κ) :
    fetchone key (insertOrReplace key rows row) k =
      if key row = k then some row else fetchone key rows k := by
  have hrest : (rows.filter fun r => key r ≠ key row).find? (fun r => key r = k) =
      if key row = k then none else rows.find? fun r => key r = k := by
    rw [List.find?_filter]
    split_ifs with hk
    · rw [List.find?_eq_none]
      intro r _ hr
      simp only [Bool.decide_and, decide_not, Bool.and_eq_true, Bool.not_eq_eq_eq_not,
        Bool.not_true, decide_eq_false_iff_not, decide_eq_true_eq] at hr
      exact hr.1 (hr.2.trans hk.symm)
    · congr 1
      funext r
      rw [decide_eq_decide]
      constructor
      · exact fun h => by simpa using h.2
      · intro h
        have hr : key r = k := by simpa using h
        simp only [decide_not, Bool.not_eq_eq_eq_not, Bool.not_true, decide_eq_false_iff_not,
          decide_eq_true_eq]
        exact ⟨fun heq => hk (heq.symm.trans hr), hr⟩
  rw [fetchone, insertOrReplace, List.find?_append, hrest]
  by_cases hk : key row = k
  · simp [hk]
  · simp [hk, fetchone]

lemma nodup_insertOrReplace {rows : List ρ} (h : (rows.map key).Nodup) (row : ρ) :
    ((insertOrReplace key rows row).map key).Nodup := by
  rw [insertOrReplace, List.map_append, List.nodup_append]
  refine ⟨(List.filter_sublist.map key).nodup h, List.nodup_singleton _, ?_⟩
  intro k hk k' hk' heq
  obtain ⟨r, hr, rfl⟩ := List.mem_map.mp hk
  rw [List.map_singleton, List.mem_singleton] at hk'
  have hne := (List.mem_filter.mp hr).2
  simp only [ne_eq, decide_not, Bool.not_eq_eq_eq_not, Bool.not_true, decide_eq_false_iff_not] at hne
  exact hne (heq.trans hk')

end

/-- Where at most one element has a property, it is found in any order. -/
lemma find?_perm {α : Type} {p : α → Bool} {l l' : List α} (h : l.Perm l')
    (hunique : ∀ a ∈ l, ∀ b ∈ l, p a = true → p b = true → a = b) : l.find? p = l'.find? p := by
  cases hfound : l'.find? p with
  | none =>
    rw [List.find?_eq_none] at hfound ⊢
    exact fun a ha => hfound a (h.mem_iff.mp ha)
  | some b =>
    have hb := h.mem_iff.mpr (List.mem_of_find?_eq_some hfound)
    have hpb := List.find?_some hfound
    cases hfound' : l.find? p with
    | none =>
      rw [List.find?_eq_none] at hfound'
      exact absurd hpb (hfound' b hb)
    | some a =>
      rw [hunique a (List.mem_of_find?_eq_some hfound') b hb (List.find?_some hfound') hpb]

/-- The key of a page. -/
def pageKey (page : Page) : Str × ℤ := (page.docId, page.index)

/-- A page of `get_pages` is the row of its key. -/
lemma find?_getPages (h : (store.pages.map pageKey).Nodup) (docId : Str) (index : ℤ) :
    ((getPages store docId).find? fun page => page.index = index) =
      fetchone pageKey store.pages (docId, index) := by
  have hinj := List.inj_on_of_nodup_map h
  have hperm := List.perm_insertionSort (fun p q : Page => p.index ≤ q.index)
    (store.pages.filter fun page => page.docId = docId)
  rw [getPages, find?_perm hperm, List.find?_filter, fetchone]
  · congr 1
    funext page
    simp [pageKey]
  · intro a ha b hb hia hib
    rw [hperm.mem_iff, List.mem_filter, decide_eq_true_eq] at ha hb
    rw [decide_eq_true_eq] at hia hib
    apply hinj ha.1 hb.1
    rw [pageKey, pageKey, ha.2, hb.2, hia, hib]

/-! ### One write -/

/-- The record that is read after a write; `none` when the read raises. -/
def readBack (env : Env Time) : Record Time → Option (Record Time)
  | .document doc =>
    (env.fromisoformat (env.isoformat doc.ingestedAt)).map fun time =>
      .document { doc with ingestedAt := time }
  | .chunk chunk =>
    ((Json.loads env.readFloat (embeddingText chunk.embedding)).bind floats?).map fun embedding =>
      .chunk { chunk with embedding }
  | .extraction extraction =>
    some (.extraction { extraction with
      confidence := realOrDefault extraction.confidence
      sourceSpan := []
      method := .block
      anchors := [] })
  | .action action =>
    (payload? env (Json.dumpsWith .spaced (PyValue.toJson (.dict action.payload.items)))).map
      fun payload =>
        .action { action with payload, confidence := realOrDefault action.confidence }
  | record => some record

lemma integer_eq_some {n m : ℤ} (h : integer n = some m) : m = n := by
  rw [integer] at h
  split_ifs at h
  cases h
  rfl

lemma real_eq_some {x y : PyFloat} (h : real x = some y) : y = x := by
  rw [real] at h
  split_ifs at h
  cases h
  rfl

lemma extractionStatus?_value (status : Pipeline.ExtractionStatus) :
    extractionStatus? (extractionStatusValue status) = some status := by
  cases status <;> decide

lemma actionKind?_value (kind : ActionKind) : actionKind? kind.value = some kind := by
  cases kind <;> decide

lemma actionStatus?_value (status : ActionStatus) : actionStatus? status.value = some status := by
  cases status <;> decide

lemma mk?_bbox (b : BBox) : BBox.mk? b.x0 b.y0 b.x1 b.y1 = some b := by
  rw [BBox.mk?, dif_pos ⟨b.x_ordered, b.y_ordered⟩]

/-- What a successful write does: one row is put into one table. -/
def Effect (env : Env Time) (store store' : Store) : Record Time → Prop
  | .document d =>
    let row := ⟨d.docId, d.sourcePath, d.sha256, d.pageCount, env.isoformat d.ingestedAt⟩
    store' = { store with documents := insertOrReplace DocumentRow.docId store.documents row }
  | .page p => store' = { store with pages := insertOrReplace pageKey store.pages p }
  | .chunk c => ∃ bbox, c.bbox = some bbox ∧
    let row := ⟨c.chunkId, c.docId, c.page, bbox.x0, bbox.y0, bbox.x1, bbox.y1, c.text, c.sourceType,
      embeddingText c.embedding⟩
    store' = { store with chunks := insertOrReplace ChunkRow.chunkId store.chunks row }
  | .extraction e => recordExtraction store e = some store'
  | .correction c => recordCorrection env store c = some store'
  | .entity e => upsertEntity store e = some store'
  | .modelVersion m =>
    store' = { store with modelVersions := insertOrReplace ModelVersion.modelId store.modelVersions m }
  | .user u => upsertUser store u = some store'
  | .action a => upsertAction store a = some store'

lemma effect_of_write {record : Record Time} (h : write env store record = some store') :
    Effect env store store' record := by
  cases record with
  | document d =>
    obtain ⟨pageCount, hcount, h⟩ := Option.bind_eq_some_iff.mp h
    cases h
    rw [integer_eq_some hcount]
    rfl
  | page p =>
    obtain ⟨index, hindex, h⟩ := Option.bind_eq_some_iff.mp h
    obtain ⟨widthPx, hwidth, h⟩ := Option.bind_eq_some_iff.mp h
    obtain ⟨heightPx, hheight, h⟩ := Option.bind_eq_some_iff.mp h
    cases h
    rw [integer_eq_some hindex, integer_eq_some hwidth, integer_eq_some hheight]
    rfl
  | chunk c =>
    obtain ⟨bbox, hbbox, h⟩ := Option.bind_eq_some_iff.mp h
    obtain ⟨page, hpage, h⟩ := Option.bind_eq_some_iff.mp h
    obtain ⟨x0, hx0, h⟩ := Option.bind_eq_some_iff.mp h
    obtain ⟨y0, hy0, h⟩ := Option.bind_eq_some_iff.mp h
    obtain ⟨x1, hx1, h⟩ := Option.bind_eq_some_iff.mp h
    obtain ⟨y1, hy1, h⟩ := Option.bind_eq_some_iff.mp h
    cases h
    rw [integer_eq_some hpage, real_eq_some hx0, real_eq_some hy0, real_eq_some hx1, real_eq_some hy1]
    exact ⟨bbox, hbbox, rfl⟩
  | modelVersion m =>
    obtain ⟨tier, htier, h⟩ := Option.bind_eq_some_iff.mp h
    cases h
    rw [integer_eq_some htier]
    rfl
  | extraction | correction | entity | user | action => exact h

/-- The keys of the pages differ. -/
lemma nodup_pages_write {record : Record Time} (h : write env store record = some store')
    (hpages : (store.pages.map pageKey).Nodup) : (store'.pages.map pageKey).Nodup := by
  have heffect := effect_of_write h
  cases record with
  | page p =>
    cases heffect
    exact nodup_insertOrReplace hpages p
  | chunk c =>
    obtain ⟨bbox, -, rfl⟩ := heffect
    exact hpages
  | document | modelVersion | extraction | correction | entity | user | action =>
    cases heffect
    exact hpages

lemma decodeRow_some {α : Type} (row : Option α) : decodeRow some row = some row := by
  cases row <;> rfl

/-- A read from the table of a write. -/
lemma read_table {ρ α κ : Type} [DecidableEq κ] {rowKey : ρ → κ} {decode : ρ → Option α}
    {wrap : α → Record Time} {rows : List ρ} {row : ρ} {k : κ} {record : Record Time} {key : Key}
    (hkey : record.key = some key ↔ rowKey row = k)
    (hback : (decode row).map wrap = readBack env record) :
    (decodeRow decode (fetchone rowKey (insertOrReplace rowKey rows row) k)).map (Option.map wrap) =
      if record.key = some key then (readBack env record).map some
      else (decodeRow decode (fetchone rowKey rows k)).map (Option.map wrap) := by
  rw [fetchone_insertOrReplace, ← hback]
  by_cases hk : rowKey row = k
  · rw [if_pos hk, if_pos (hkey.mpr hk), decodeRow, Option.map_map, Option.map_map]
    rfl
  · rw [if_neg hk, if_neg (mt hkey.mp hk)]

/-- A read from the table of a write, where the rows are the records themselves. -/
lemma read_rows {α κ : Type} [DecidableEq κ] {rowKey : α → κ} {wrap : α → Record Time} {rows : List α}
    {row : α} {k : κ} {record : Record Time} {key : Key}
    (hkey : record.key = some key ↔ rowKey row = k) (hback : readBack env record = some (wrap row)) :
    some ((fetchone rowKey (insertOrReplace rowKey rows row) k).map wrap) =
      if record.key = some key then (readBack env record).map some
      else some ((fetchone rowKey rows k).map wrap) := by
  have htable := @read_table Time env α α κ _ rowKey some wrap rows row k record key hkey hback.symm
  rw [decodeRow_some, decodeRow_some] at htable
  exact htable

/-- A read after a write gives the record of the write under its key, and under the other keys what it
gave before. -/
lemma read_write {record : Record Time} (h : write env store record = some store')
    (hpages : (store.pages.map pageKey).Nodup) (key : Key) :
    read env store' key =
      if record.key = some key then (readBack env record).map some else read env store key := by
  have heffect := effect_of_write h
  have hpages' := nodup_pages_write h hpages
  cases record with
  | document d =>
    cases heffect
    cases key with
    | document docId =>
      apply read_table
      · simp [Record.key]
      · rw [rowToDocument, readBack]
        cases env.fromisoformat (env.isoformat d.ingestedAt) <;> rfl
    | _ =>
      rw [if_neg (by simp [Record.key])]
      rfl
  | page p =>
    cases heffect
    cases key with
    | page docId index =>
      rw [read, read, find?_getPages hpages', find?_getPages hpages]
      exact read_rows (by simp [Record.key, pageKey]) rfl
    | _ =>
      rw [if_neg (by simp [Record.key])]
      rfl
  | chunk c =>
    obtain ⟨bbox, hbbox, rfl⟩ := heffect
    cases key with
    | chunk chunkId =>
      apply read_table
      · simp [Record.key]
      · rw [rowToChunk, mk?_bbox, readBack, hbbox]
        cases (Json.loads env.readFloat (embeddingText c.embedding)) with
        | none => rfl
        | some v =>
          cases hv : floats? v with
          | none => simp [hv]
          | some embedding => simp [hv]
    | _ =>
      rw [if_neg (by simp [Record.key])]
      rfl
  | extraction e =>
    cases heffect
    cases key with
    | extraction extId =>
      apply read_table
      · simp [Record.key]
      · rw [rowToExtraction, extractionStatus?_value]
        rfl
    | _ =>
      rw [if_neg (by simp [Record.key])]
      rfl
  | correction c =>
    cases heffect
    rw [if_neg (by simp [Record.key])]
    cases key <;> rfl
  | entity e =>
    cases heffect
    cases key with
    | entity entityId =>
      exact read_rows (by simp [Record.key]) rfl
    | _ =>
      rw [if_neg (by simp [Record.key])]
      rfl
  | modelVersion m =>
    cases heffect
    cases key with
    | modelVersion modelId =>
      exact read_rows (by simp [Record.key]) rfl
    | _ =>
      rw [if_neg (by simp [Record.key])]
      rfl
  | user u =>
    cases heffect
    cases key with
    | user userId =>
      exact read_rows (by simp [Record.key]) rfl
    | _ =>
      rw [if_neg (by simp [Record.key])]
      rfl
  | action a =>
    cases heffect
    cases key with
    | action actionId =>
      apply read_table
      · simp [Record.key]
      · rw [rowToAction, actionKind?_value, actionStatus?_value, readBack]
        cases payload? env (Json.dumpsWith .spaced (PyValue.toJson (.dict a.payload.items))) <;> rfl
    | _ =>
      rw [if_neg (by simp [Record.key])]
      rfl

/-! ### Records that come back -/

/-- The floats of a record are read from their texts. -/
def FloatsRead (env : Env Time) : Record Time → Prop
  | .chunk c => ∀ x ∈ c.embedding, Json.ReadsBack ⟨env.readFloat, true⟩ (.float x)
  | .action a => Json.ReadsBack ⟨env.readFloat, true⟩ (PyValue.toJson (.dict a.payload.items))
  | _ => True

/-- The records that are read as they were written. -/
def Kept : Record Time → Prop
  | .extraction e =>
    e.sourceSpan = [] ∧ e.method = .block ∧ e.anchors = [] ∧ e.confidence ≠ .nan
  | .action a => a.confidence ≠ .nan ∧ PyValue.Plain (.dict a.payload.items)
  | _ => True

lemma realOrDefault_eq_iff {x : PyFloat} : realOrDefault x = x ↔ x ≠ .nan := by
  rw [realOrDefault]
  split_ifs with h
  · rw [h]
    simp
  · exact iff_of_true rfl h

lemma loads_embeddingText {embedding : List FloatRepr}
    (h : ∀ x ∈ embedding, Json.ReadsBack ⟨env.readFloat, true⟩ (.float x)) :
    (Json.loads env.readFloat (embeddingText embedding)).bind floats? = some embedding := by
  have hread : Json.ReadsBack ⟨env.readFloat, true⟩ (.arr (embedding.map Json.float)) := by
    rw [Json.ReadsBack, Json.itemsReadBack_iff, List.forall_mem_map]
    exact h
  have hkeys : Json.DistinctKeys (.arr (embedding.map Json.float)) := by
    rw [Json.DistinctKeys, Json.distinctKeysItems_iff, List.forall_mem_map]
    exact fun _ _ => trivial
  rw [embeddingText, Json.loads_dumpsWith Json.Style.readable_spaced hread hkeys, Option.bind_some,
    floats?, List.mapM_map]
  exact List.mapM_pure.trans (congrArg some (List.map_id embedding))

lemma payload?_eq_some_iff {text : String} {payload : Payload} :
    payload? env text = some payload ↔
      (Json.loads env.readFloat text).map PyValue.ofJson = some (.dict payload.items) := by
  rw [payload?]
  split
  · rename_i kvs hloads
    have hmap : (Json.loads env.readFloat text).map PyValue.ofJson =
        some (.dict (PyValue.ofJsonMembers kvs)) := by rw [hloads, Option.map_some, PyValue.ofJson]
    rw [hmap, Option.some.injEq, Option.some.injEq, PyValue.dict.injEq, Payload.ext_iff]
  · rename_i hother
    refine iff_of_false (by simp) ?_
    intro h
    obtain ⟨v, hv, hdict⟩ := Option.map_eq_some_iff.mp h
    cases v with
    | obj kvs => exact hother kvs hv
    | _ => cases hdict

/-- A record comes back as it was written if and only if nothing of it is lost. -/
lemma readBack_eq_iff (htime : ∀ t, env.fromisoformat (env.isoformat t) = some t)
    {record : Record Time} (hfloats : FloatsRead env record) :
    readBack env record = some record ↔ Kept record := by
  cases record with
  | document d =>
    rw [readBack, htime]
    exact iff_of_true rfl trivial
  | chunk c =>
    rw [readBack, loads_embeddingText hfloats]
    exact iff_of_true rfl trivial
  | extraction e =>
    obtain ⟨extId, packId, fieldName, value, sourceSpan, confidence, modelVersion, status, chunkId,
      method, anchors⟩ := e
    rw [readBack, Kept, Option.some.injEq, Record.extraction.injEq, Extraction.mk.injEq]
    constructor
    · rintro ⟨-, -, -, -, hspan, hconfidence, -, -, -, hmethod, hanchors⟩
      exact ⟨hspan.symm, hmethod.symm, hanchors.symm, realOrDefault_eq_iff.mp hconfidence⟩
    · rintro ⟨rfl, rfl, rfl, hconfidence⟩
      exact ⟨rfl, rfl, rfl, rfl, rfl, realOrDefault_eq_iff.mpr hconfidence, rfl, rfl, rfl, rfl, rfl⟩
  | action a =>
    obtain ⟨actionId, extId, kind, targetApp, payload, confidence, status⟩ := a
    have hplain := PyValue.ofJson_loads_iff Json.Style.readable_spaced hfloats payload.wellFormed
    rw [readBack, Kept, Option.map_eq_some_iff]
    constructor
    · rintro ⟨payload', hpayload, heq⟩
      rw [Record.action.injEq, Action.mk.injEq] at heq
      obtain ⟨-, -, -, -, rfl, hconfidence, -⟩ := heq
      exact ⟨realOrDefault_eq_iff.mp hconfidence, hplain.mp (payload?_eq_some_iff.mp hpayload)⟩
    · rintro ⟨hconfidence, hkeys⟩
      refine ⟨payload, payload?_eq_some_iff.mpr (hplain.mpr hkeys), ?_⟩
      rw [realOrDefault_eq_iff.mpr hconfidence]
  | page | correction | entity | modelVersion | user => exact iff_of_true rfl trivial

/-! ### Runs -/

lemma run_concat (writes : List (Record Time)) (record : Record Time) :
    run env (writes ++ [record]) = (run env writes).bind fun store => write env store record := by
  simp [run, List.foldlM_append]

lemma lastWritten_concat (writes : List (Record Time)) (record : Record Time) (key : Key) :
    lastWritten (writes ++ [record]) key =
      if record.key = some key then some record else lastWritten writes key := by
  rw [lastWritten, List.reverse_append, List.reverse_singleton, List.singleton_append,
    List.find?_cons]
  by_cases h : record.key = some key <;> simp [h, lastWritten]

lemma nodup_pages_run {writes : List (Record Time)} {store : Store}
    (h : run env writes = some store) : (store.pages.map pageKey).Nodup := by
  induction writes using List.reverseRecOn generalizing store with
  | nil =>
    cases h
    exact List.nodup_nil
  | append_singleton writes record ih =>
    rw [run_concat] at h
    obtain ⟨before, hbefore, h⟩ := Option.bind_eq_some_iff.mp h
    exact nodup_pages_write h (ih hbefore)

/-- If the records are kept, a read gives the last one. -/
lemma read_run (htime : ∀ t, env.fromisoformat (env.isoformat t) = some t)
    {writes : List (Record Time)} (hfloats : ∀ record ∈ writes, FloatsRead env record)
    (hkept : ∀ record ∈ writes, Kept record) {store : Store} (h : run env writes = some store)
    (key : Key) : read env store key = some (lastWritten writes key) := by
  induction writes using List.reverseRecOn generalizing store with
  | nil =>
    cases h
    cases key <;> rfl
  | append_singleton writes record ih =>
    rw [List.forall_mem_append, List.forall_mem_singleton] at hfloats hkept
    rw [run_concat] at h
    obtain ⟨before, hbefore, h⟩ := Option.bind_eq_some_iff.mp h
    rw [read_write h (nodup_pages_run hbefore), ih hfloats.1 hkept.1 hbefore,
      (readBack_eq_iff htime hfloats.2).mpr hkept.2, lastWritten_concat]
    split_ifs <;> rfl

/-- In every state of a run of successful writes a read by an id gives the record last written under
it, if and only if every record that is written is one that is kept. -/
theorem reads_last_written_iff (env : Env Time)
    (htime : ∀ t, env.fromisoformat (env.isoformat t) = some t) (writes : List (Record Time))
    (hfloats : ∀ record ∈ writes, FloatsRead env record) {store : Store}
    (hrun : run env writes = some store) :
    (∀ before after state, writes = before ++ after → run env before = some state →
      ∀ key, read env state key = some (lastWritten before key)) ↔
    ∀ record ∈ writes, Kept record := by
  constructor
  · intro h record hrecord
    obtain ⟨before, after, rfl⟩ := List.append_of_mem hrecord
    cases hkey : record.key with
    | none =>
      cases record with
      | correction c => trivial
      | _ => cases hkey
    | some key =>
      -- the record is the last one of the run that ends with it
      have happend : before ++ record :: after = (before ++ [record]) ++ after := by simp
      have hstate : ∃ state, run env (before ++ [record]) = some state := by
        rw [happend, run, List.foldlM_append] at hrun
        obtain ⟨state, hstate, -⟩ := Option.bind_eq_some_iff.mp hrun
        exact ⟨state, hstate⟩
      obtain ⟨state, hstate⟩ := hstate
      have hread := h _ after state happend hstate key
      rw [lastWritten_concat, if_pos hkey] at hread
      rw [run_concat] at hstate
      obtain ⟨store', hbefore, hwrite⟩ := Option.bind_eq_some_iff.mp hstate
      rw [read_write hwrite (nodup_pages_run hbefore), if_pos hkey, Option.map_eq_some_iff] at hread
      obtain ⟨_, hback, heq⟩ := hread
      cases heq
      exact (readBack_eq_iff htime (hfloats record hrecord)).mp hback
  · intro hkept before after state heq hstate key
    subst heq
    rw [List.forall_mem_append] at hfloats hkept
    exact read_run htime hfloats.1 hkept.1 hstate key

namespace Sample

/-- Times are their ISO texts, and the only float is 6.5. -/
def isoEnv : Env String := ⟨id, some, fun _ => ⟨"6.5".toList, by decide⟩⟩

/-- An extraction as a pack makes it, before it is grounded. -/
def extraction : Extraction := { extId := "e1".toList, fieldName := "title".toList, value := "Lease".toList }

/-- The extraction with its source. -/
def groundedExtraction : Extraction :=
  { extraction with sourceSpan := "Lease".toList, method := .exact, anchors := [{ page := 1 }] }

def action : Action :=
  { actionId := "a1".toList, extId := "e1".toList
    payload := ⟨[(.str "text", .str "Lease")], ⟨by simp, trivial, trivial⟩⟩ }

def writes : List (Record String) := [.extraction extraction, .action action]

theorem reads_last_written_plain :
    ∃ store, run isoEnv writes = some store ∧
      ∀ before after state, writes = before ++ after → run isoEnv before = some state →
        ∀ key, read isoEnv state key = some (lastWritten before key) := by
  refine ⟨_, rfl, ?_⟩
  apply (reads_last_written_iff isoEnv (fun _ => rfl) writes ?_ rfl).mpr
  · rw [writes, List.forall_mem_cons, List.forall_mem_singleton]
    exact ⟨⟨rfl, rfl, rfl, by decide⟩, by decide, ⟨_, rfl⟩, trivial, trivial⟩
  · rw [writes, List.forall_mem_cons, List.forall_mem_singleton]
    exact ⟨trivial, trivial, trivial⟩

/-- The extraction comes back without its source. -/
theorem groundedExtraction_not_read_back :
    ∃ store, run isoEnv [.extraction groundedExtraction] = some store ∧
      read isoEnv store (.extraction groundedExtraction.extId) = some (some (.extraction extraction)) ∧
      @lastWritten String [.extraction groundedExtraction]
        (.extraction groundedExtraction.extId) = some (.extraction groundedExtraction) ∧
      extraction ≠ groundedExtraction :=
  ⟨_, rfl, rfl, rfl, by decide⟩

end Sample

end AxiomGrid.Memory

import AxiomGrid.Lib.Dict
import AxiomGrid.Receipts.Log

/-!
# The document graph

`DocumentGraph::index_directory` of `phantom-core/src/memory/document_graph.rs`. The node of a document
holds the text that was indexed, and a document is indexed again when its text is another one. The node
is written before the entities are extracted: if that fails, then nothing is left to do in a later run.
-/

namespace AxiomGrid.Phantom.DocumentGraph

open Receipts

/-! ### The database -/

structure Node where
  name : Str
  nodeType : Str
  content : Str

/-- The tables `nodes`, by their ids, and `edges`, each a source, a target and a relation. -/
structure Db where
  nodes : Dict Str Node := []
  edges : List (Str × Str × Str) := []

namespace Db

/-- `INSERT OR IGNORE INTO nodes`. -/
def insertNode (db : Db) (id : Str) (node : Node) : Db :=
  match db.nodes.get? id with
  | some _ => db
  | none => { db with nodes := db.nodes.set id node }

/-- `INSERT OR IGNORE INTO edges`. -/
def insertEdge (db : Db) (edge : Str × Str × Str) : Db :=
  if edge ∈ db.edges then db else { db with edges := db.edges ++ [edge] }

/-- `DELETE` of a node, and of the edges that leave it. -/
def deleteSource (db : Db) (id : Str) : Db where
  nodes := db.nodes.filter fun node => node.1 ≠ id
  edges := db.edges.filter fun edge => edge.1 ≠ id

@[simp] lemma edges_insertNode (db : Db) (id : Str) (node : Node) :
    (db.insertNode id node).edges = db.edges := by
  rw [insertNode]
  split <;> rfl

lemma get?_insertNode (db : Db) (id : Str) (node : Node) (id' : Str) :
    (db.insertNode id node).nodes.get? id' =
      if id = id' then some ((db.nodes.get? id).getD node) else db.nodes.get? id' := by
  rw [insertNode]
  cases hget : db.nodes.get? id with
  | some found =>
    split_ifs with hid
    · exact hid ▸ hget
    · rfl
  | none => exact Dict.get?_set _ _ _ _

@[simp] lemma nodes_insertEdge (db : Db) (edge : Str × Str × Str) :
    (db.insertEdge edge).nodes = db.nodes := by
  rw [insertEdge]
  split <;> rfl

@[simp] lemma mem_insertEdge {db : Db} {edge edge' : Str × Str × Str} :
    edge' ∈ (db.insertEdge edge).edges ↔ edge' ∈ db.edges ∨ edge' = edge := by
  rw [insertEdge]
  split_ifs with hmem
  · exact ⟨.inl, fun h => h.elim id fun h => h ▸ hmem⟩
  · simp

lemma get?_deleteSource (db : Db) (id id' : Str) :
    (db.deleteSource id).nodes.get? id' = if id = id' then none else db.nodes.get? id' := by
  rw [deleteSource]
  induction db.nodes with
  | nil => split_ifs <;> rfl
  | cons node nodes ih =>
    rw [List.filter_cons, Dict.get?]
    by_cases hnode : node.1 = id
    · simp only [hnode, ne_eq, not_true, decide_false, Bool.false_eq_true, if_false]
      rw [ih]
      split_ifs <;> rfl
    · simp only [hnode, ne_eq, not_false_eq_true, decide_true, if_true]
      rw [Dict.get?, ih]
      split_ifs with hid hid'
      · exact absurd (hid.trans hid'.symm) hnode
      all_goals rfl

lemma mem_deleteSource {db : Db} {id : Str} {edge : Str × Str × Str} :
    edge ∈ (db.deleteSource id).edges ↔ edge ∈ db.edges ∧ edge.1 ≠ id := by
  simp [deleteSource]

end Db

/-! ### Indexing -/

structure ExtractedEntity where
  name : Str
  entityType : Str
  relation : Str

/-- An entry of the directory, as a run finds it. -/
structure Entry where
  fileId : Str
  fileName : Str
  isFile : Bool
  extension : Str
  /-- The text that the extractors find in it. -/
  fullText : Option Str
  /-- The call of `extract_entities_via_llm` fails, if it is made. -/
  fails : Bool

/-- The entries of a directory, which have different paths. -/
structure Directory where
  entries : List Entry
  nodup : (entries.map Entry.fileId).Nodup

variable (u : UnicodeData) (extract : Str → List ExtractedEntity)

def isDocument (entry : Entry) : Bool :=
  entry.isFile && decide (Str.lower u entry.extension ∈
    ["txt", "md", "docx", "doc", "pdf", "xlsx", "xls"].map String.toList)

/-- The text of a document, unless there is none or it is blank. -/
def currentText (entry : Entry) : Option Str :=
  if isDocument u entry then entry.fullText.filter fun text => !isBlankLine text else none

/-- `s.trim()`. -/
def trim (s : Str) : Str := ((s.dropWhile isWhiteSpace).reverse.dropWhile isWhiteSpace).reverse

def entityId (name : Str) : Str :=
  "entity:".toList ++ (trim (Str.lower u name)).map fun c => if c = ' ' then '-' else c

/-- The target and the relation of the edge to an entity. -/
def link (ent : ExtractedEntity) : Str × Str := (entityId u ent.name, trim ent.relation)

/-- The node of an entity, and the edge to it. -/
def addEntity (fileId : Str) (db : Db) (ent : ExtractedEntity) : Db :=
  (db.insertNode (entityId u ent.name) ⟨trim ent.name, trim ent.entityType, []⟩).insertEdge
    (fileId, link u ent)

/-- The node of a document, and then its entities. -/
def insertDocument (db : Db) (entry : Entry) (text : Str) : Db :=
  let db := db.insertNode entry.fileId ⟨entry.fileName, "document".toList, text⟩
  if entry.fails then db else (extract text).foldl (addEntity u entry.fileId) db

/-- The body of the loop over the entries. -/
def indexEntry (db : Db) (entry : Entry) : Db :=
  match currentText u entry with
  | none => db
  | some text =>
    match db.nodes.get? entry.fileId with
    | none => insertDocument u extract db entry text
    | some stored =>
      if stored.content = text then db
      else insertDocument u extract (db.deleteSource entry.fileId) entry text

/-- `index_directory`. A directory that is not there has no entries. -/
def indexDirectory (db : Db) (directory : Directory) : Db :=
  directory.entries.foldl (indexEntry u extract) db

/-- The graph after some runs. -/
def index (runs : List Directory) : Db := runs.foldl (indexDirectory u extract) {}

/-! ### What was indexed last -/

/-- What a run finds, after what was indexed before. -/
def visit (last : Option (Str × Bool)) (entry : Entry) : Option (Str × Bool) :=
  match currentText u entry with
  | none => last
  | some text => if last.map Prod.fst = some text then last else some (text, entry.fails)

/-- The text of a file that was new last, and whether the call for it failed. -/
def lastIndexed (fileId : Str) (visits : List Entry) : Option (Str × Bool) :=
  (visits.filter fun entry => entry.fileId = fileId).foldl (visit u) none

lemma lastIndexed_concat (fileId : Str) (visits : List Entry) (entry : Entry) :
    lastIndexed u fileId (visits ++ [entry]) =
      if entry.fileId = fileId then visit u (lastIndexed u fileId visits) entry
      else lastIndexed u fileId visits := by
  rw [lastIndexed, List.filter_append, List.foldl_append]
  by_cases hid : entry.fileId = fileId
  · simp [hid, lastIndexed]
  · simp [hid, lastIndexed]

/-- The edges that a call has left. -/
def leaving : Option (Str × Bool) → List (Str × Str)
  | some (text, false) => (extract text).map (link u)
  | _ => []

/-- The graph holds what was indexed last of each file. -/
structure Follows (visits : List Entry) (db : Db) : Prop where
  stored : ∀ fileId last, lastIndexed u fileId visits = some last →
    ∃ node, db.nodes.get? fileId = some node ∧ node.content = last.1
  empty : ∀ fileId node, lastIndexed u fileId visits = none →
    db.nodes.get? fileId = some node → node.content = []
  edges : ∀ fileId edge, (fileId, edge) ∈ db.edges ↔
    edge ∈ leaving u extract (lastIndexed u fileId visits)

variable {u extract}

/-- A node that is written with the entities is empty, and the others stay. -/
lemma foldl_addEntity (fileId : Str) (ents : List ExtractedEntity) (db : Db) :
    (∀ id node, db.nodes.get? id = some node →
      (ents.foldl (addEntity u fileId) db).nodes.get? id = some node) ∧
    (∀ id node, db.nodes.get? id = none →
      (ents.foldl (addEntity u fileId) db).nodes.get? id = some node → node.content = []) ∧
    ∀ edge, edge ∈ (ents.foldl (addEntity u fileId) db).edges ↔
      edge ∈ db.edges ∨ edge.1 = fileId ∧ edge.2 ∈ ents.map (link u) := by
  induction ents generalizing db with
  | nil =>
    refine ⟨fun _ _ h => h, fun id node h h' => ?_, by simp⟩
    rw [List.foldl_nil, h] at h'
    cases h'
  | cons ent ents ih =>
    obtain ⟨hkept, hempty, hedges⟩ := ih (addEntity u fileId db ent)
    have hget : ∀ id, (addEntity u fileId db ent).nodes.get? id = if entityId u ent.name = id then
        some ((db.nodes.get? (entityId u ent.name)).getD ⟨trim ent.name, trim ent.entityType, []⟩)
        else db.nodes.get? id := by
      intro id
      rw [addEntity, Db.nodes_insertEdge, Db.get?_insertNode]
    refine ⟨fun id node h => hkept id node ?_, fun id node h h' => ?_, fun edge => ?_⟩
    · rw [hget]
      split_ifs with hid
      · rw [hid, h, Option.getD_some]
      · exact h
    · by_cases hid : entityId u ent.name = id
      · have hnew := hget id
        rw [if_pos hid, hid, h, Option.getD_none] at hnew
        rw [List.foldl_cons, hkept id _ hnew] at h'
        cases h'
        rfl
      · exact hempty id node (by rw [hget, if_neg hid]; exact h) h'
    · rw [List.foldl_cons, hedges, addEntity, Db.mem_insertEdge, Db.edges_insertNode, List.map_cons,
        List.mem_cons, or_assoc, and_or_left]
      exact or_congr_right (or_congr_left Prod.ext_iff)

/-- A document that is not there is written with the edges that the call leaves. -/
lemma insertDocument_spec {db : Db} {entry : Entry} (hnew : db.nodes.get? entry.fileId = none)
    (text : Str) :
    (∃ node, (insertDocument u extract db entry text).nodes.get? entry.fileId = some node ∧
      node.content = text) ∧
    (∀ id node, db.nodes.get? id = some node →
      (insertDocument u extract db entry text).nodes.get? id = some node) ∧
    (∀ id node, id ≠ entry.fileId → db.nodes.get? id = none →
      (insertDocument u extract db entry text).nodes.get? id = some node → node.content = []) ∧
    ∀ edge, edge ∈ (insertDocument u extract db entry text).edges ↔
      edge ∈ db.edges ∨
        edge.1 = entry.fileId ∧ edge.2 ∈ leaving u extract (some (text, entry.fails)) := by
  set doc : Node := ⟨entry.fileName, "document".toList, text⟩
  have hget := fun id => Db.get?_insertNode db entry.fileId doc id
  have hdoc : (db.insertNode entry.fileId doc).nodes.get? entry.fileId = some doc := by
    rw [hget, if_pos rfl, hnew, Option.getD_none]
  have hother : ∀ id node, db.nodes.get? id = some node →
      (db.insertNode entry.fileId doc).nodes.get? id = some node := by
    intro id node h
    rw [hget, if_neg, h]
    rintro rfl
    rw [hnew] at h
    cases h
  have habsent : ∀ id, id ≠ entry.fileId → db.nodes.get? id = none →
      (db.insertNode entry.fileId doc).nodes.get? id = none := by
    intro id hid h
    rw [hget, if_neg hid.symm, h]
  rw [insertDocument]
  cases entry.fails with
  | true =>
    refine ⟨⟨doc, hdoc, rfl⟩, hother, fun id node hid h h' => ?_, by simp [leaving]⟩
    rw [if_pos rfl, habsent id hid h] at h'
    cases h'
  | false =>
    obtain ⟨hkept, hempty, hedges⟩ :=
      @foldl_addEntity u entry.fileId (extract text) (db.insertNode entry.fileId doc)
    refine ⟨⟨doc, hkept _ _ hdoc, rfl⟩, fun id node h => hkept _ _ (hother id node h),
      fun id node hid h => hempty id node (habsent id hid h), fun edge => ?_⟩
    rw [if_neg Bool.false_ne_true, hedges, Db.edges_insertNode, leaving]

variable {visits : List Entry} {db : Db} {entry : Entry} {text : Str}

/-- A new text of a file is indexed, and nothing of its old edges is left. -/
lemma Follows.insert (h : Follows u extract visits db) (htext : currentText u entry = some text)
    (hlast : (lastIndexed u entry.fileId visits).map Prod.fst ≠ some text) {cleared : Db}
    (hcleared : ∀ id, cleared.nodes.get? id =
      if entry.fileId = id then none else db.nodes.get? id)
    (hedges : ∀ edge, edge ∈ cleared.edges ↔ edge ∈ db.edges ∧ edge.1 ≠ entry.fileId) :
    Follows u extract (visits ++ [entry]) (insertDocument u extract cleared entry text) := by
  have hnew : cleared.nodes.get? entry.fileId = none := by rw [hcleared, if_pos rfl]
  obtain ⟨hstored, hkept, hempty, hleaving⟩ := @insertDocument_spec u extract cleared entry hnew text
  have hvisit : visit u (lastIndexed u entry.fileId visits) entry = some (text, entry.fails) := by
    rw [visit, htext]
    exact if_neg hlast
  refine ⟨fun fileId last h' => ?_, fun fileId node h' hnode => ?_, fun fileId edge => ?_⟩
  · rw [lastIndexed_concat] at h'
    split_ifs at h' with hid
    · obtain rfl := hid
      rw [hvisit] at h'
      cases h'
      exact hstored
    · obtain ⟨node, hnode, hcontent⟩ := h.stored fileId last h'
      exact ⟨node, hkept _ _ (by rw [hcleared, if_neg hid, hnode]), hcontent⟩
  · rw [lastIndexed_concat] at h'
    split_ifs at h' with hid
    · obtain rfl := hid
      rw [hvisit] at h'
      cases h'
    · cases hold : db.nodes.get? fileId with
      | none =>
        exact hempty fileId node (Ne.symm hid) (by rw [hcleared, if_neg hid, hold]) hnode
      | some old =>
        have hsame := hkept fileId old (by rw [hcleared, if_neg hid, hold])
        rw [hnode] at hsame
        cases hsame
        exact h.empty fileId node h' hold
  · rw [hleaving, hedges, h.edges, lastIndexed_concat]
    by_cases hid : entry.fileId = fileId
    · obtain rfl := hid
      simp [hvisit]
    · simp [hid, Ne.symm hid]

lemma Follows.step (h : Follows u extract visits db) (entry : Entry) :
    Follows u extract (visits ++ [entry]) (indexEntry u extract db entry) := by
  have hsame : visit u (lastIndexed u entry.fileId visits) entry =
      lastIndexed u entry.fileId visits → Follows u extract (visits ++ [entry]) db := by
    intro hvisit
    have hlast : ∀ fileId, lastIndexed u fileId (visits ++ [entry]) = lastIndexed u fileId visits := by
      intro fileId
      rw [lastIndexed_concat]
      split_ifs with hid
      · exact hid ▸ hvisit
      · rfl
    refine ⟨fun fileId last => ?_, fun fileId node => ?_, fun fileId edge => ?_⟩
    · rw [hlast]
      exact h.stored fileId last
    · rw [hlast]
      exact h.empty fileId node
    · rw [hlast]
      exact h.edges fileId edge
  rw [indexEntry]
  cases htext : currentText u entry with
  | none => exact hsame (by rw [visit, htext])
  | some text =>
    cases hnode : db.nodes.get? entry.fileId with
    | none =>
      -- no node, so the file was never indexed and has no edges
      have hlast : lastIndexed u entry.fileId visits = none := by
        cases hlast : lastIndexed u entry.fileId visits with
        | none => rfl
        | some last =>
          obtain ⟨node, hget, -⟩ := h.stored _ _ hlast
          rw [hnode] at hget
          cases hget
      refine h.insert htext (by rw [hlast]; exact nofun) (fun id => ?_) fun edge => ?_
      · split_ifs with hid
        · exact hid ▸ hnode
        · rfl
      · refine ⟨fun hedge => ⟨hedge, fun hid => ?_⟩, And.left⟩
        have hleaving := (h.edges edge.1 edge.2).mp hedge
        rw [hid, hlast] at hleaving
        cases hleaving
    | some stored =>
      simp only
      have hcontent : (lastIndexed u entry.fileId visits).map Prod.fst = some text ↔
          stored.content = text := by
        cases hlast : lastIndexed u entry.fileId visits with
        | none =>
          rw [h.empty _ _ hlast hnode]
          refine iff_of_false nofun fun hnil => ?_
          rw [currentText] at htext
          split_ifs at htext
          have hblank := (Option.filter_eq_some_iff.mp htext).2
          rw [← hnil] at hblank
          cases hblank
        | some last =>
          obtain ⟨node, hget, hlastText⟩ := h.stored _ _ hlast
          rw [hnode] at hget
          cases hget
          simp [hlastText]
      split_ifs with heq
      · refine hsame ?_
        rw [visit, htext]
        exact if_pos (hcontent.mpr heq)
      · exact h.insert htext (fun hlast => heq (hcontent.mp hlast))
          (fun id => Db.get?_deleteSource db entry.fileId id) fun edge => Db.mem_deleteSource

lemma follows_foldl (entries : List Entry) (h : Follows u extract visits db) :
    Follows u extract (visits ++ entries) (entries.foldl (indexEntry u extract) db) := by
  induction entries generalizing visits db with
  | nil => rwa [List.append_nil]
  | cons entry entries ih =>
    rw [List.foldl_cons, List.append_cons]
    exact ih (h.step entry)

/-- All that the runs find. -/
def history (runs : List Directory) : List Entry := runs.flatMap Directory.entries

/-- After any runs the graph holds what was indexed last of each file. -/
lemma follows_index (runs : List Directory) :
    Follows u extract (history runs) (index u extract runs) := by
  have hfold : index u extract runs = (history runs).foldl (indexEntry u extract) {} := by
    rw [index, history, List.foldl_flatMap]
    rfl
  rw [hfold]
  have hempty : Follows u extract [] {} := ⟨nofun, nofun, fun _ _ => iff_of_false nofun nofun⟩
  exact follows_foldl (history runs) hempty

/-! ### Documents that are up to date -/

variable (u extract)

/-- The edges that leave the documents of a directory are those of their texts. A document without a
text has none. -/
def UpToDate (db : Db) (directory : Directory) : Prop :=
  ∀ entry ∈ directory.entries, isDocument u entry → ∀ edge, (entry.fileId, edge) ∈ db.edges ↔
    ∃ text, currentText u entry = some text ∧ edge ∈ (extract text).map (link u)

/-- The call for the present text did not fail, if there are any edges to leave; a file that has lost its
text had no edges. -/
def Recovered (visits : List Entry) (entry : Entry) : Prop :=
  match currentText u entry with
  | some text => lastIndexed u entry.fileId visits = some (text, true) → extract text = []
  | none => ∀ text, lastIndexed u entry.fileId visits = some (text, false) → extract text = []

variable {u extract}

/-- Of a document that the last run finds with a text, this text was indexed last. -/
lemma exists_lastIndexed (runs : List Directory) {directory : Directory} {entry : Entry}
    (hentry : entry ∈ directory.entries) {text : Str} (htext : currentText u entry = some text) :
    ∃ failed, lastIndexed u entry.fileId (history (runs ++ [directory])) = some (text, failed) := by
  obtain ⟨before, after, hsplit⟩ := List.append_of_mem hentry
  have hother : after.filter (fun e => e.fileId = entry.fileId) = [] := by
    have hnodup := directory.nodup
    rw [hsplit, List.map_append, List.map_cons, List.nodup_append, List.nodup_cons] at hnodup
    refine List.filter_eq_nil_iff.mpr fun e he hid => hnodup.2.1.1 ?_
    exact List.mem_map.mpr ⟨e, he, of_decide_eq_true hid⟩
  have hhistory : history (runs ++ [directory]) = (history runs ++ before) ++ entry :: after := by
    simp [history, hsplit]
  rw [hhistory, lastIndexed, List.filter_append, List.filter_cons, if_pos (decide_eq_true rfl), hother,
    List.foldl_append, List.foldl_cons, List.foldl_nil, visit, htext]
  generalize ((history runs ++ before).filter _).foldl (visit u) none = last
  simp only
  split_ifs with hsame
  · obtain ⟨found, hfound, rfl⟩ := Option.map_eq_some_iff.mp hsame
    exact ⟨found.2, hfound⟩
  · exact ⟨entry.fails, rfl⟩

namespace Sample

/-- A memo in which one company is named. -/
def memo (fails : Bool) : Directory where
  entries :=
    [{ fileId := "kairo/memo.txt".toList
       fileName := "memo.txt".toList
       isFile := true
       extension := "txt".toList
       fullText := some "Acme".toList
       fails }]
  nodup := List.nodup_singleton _

def company (text : Str) : List ExtractedEntity :=
  [{ name := text, entityType := "company".toList, relation := "party".toList }]

end Sample

end AxiomGrid.Phantom.DocumentGraph

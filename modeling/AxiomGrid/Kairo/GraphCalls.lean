import AxiomGrid.Kairo.GraphEdges

/-!
# Building the knowledge graph in several calls

`build_from_extractions` adds to the graph that is there. The nodes of the entities and their sources
do not depend on how the documents are spread over calls. Relationships are inferred from the
documents of one call: a document is connected to an entity that it shares with a document of its own
call, and not to one that it shares with documents of other calls only.
-/

namespace AxiomGrid.Kairo.KnowledgeGraph

open Pipeline

/-- Several calls of `build_from_extractions` on one graph. -/
def buildAll (env : Env) (graph : Graph) (calls : List (Dict Str (List Extraction))) :
    Except String Graph :=
  calls.foldlM (fun graph byDoc => (build env graph byDoc).map Prod.fst) graph

variable {env : Env}

/-- The entity with the node is found in the document. -/
def Has (env : Env) (entry : Str × List Extraction) (nodeId : Str) : Prop :=
  ∃ ent, Found env entry ent ∧ ent.nodeId env = .ok nodeId

/-- The document is among the sources of the node of an entity. -/
def IsSource (graph : Graph) (nodeId docId : Str) : Prop :=
  ∃ attrs ent, graph.nodes.get? nodeId = some attrs ∧ attrs.entity = some ent ∧
    docId ∈ attrs.sourceDocs.getD [ent.sourceDoc]

/-- The node of an entity and the document have an edge. -/
def Connected (graph : Graph) (nodeId docId : Str) : Prop :=
  ∃ attrs, graph.edges.get? s(nodeId, docNode docId) = some attrs

/-- The document shares the entity with another document of the call. -/
def Shares (env : Env) (byDoc : Dict Str (List Extraction)) (nodeId docId : Str) : Prop :=
  ∃ entry ∈ byDoc, ∃ entry' ∈ byDoc, entry.1 = docId ∧ entry'.1 ≠ docId ∧
    Has env entry nodeId ∧ Has env entry' nodeId

/-! ### Nodes -/

/-- The name of no type begins like the id of a document. -/
lemma take_name (entityType : EntityType) :
    2 ≤ entityType.name.length ∧ entityType.name.take 2 ≠ "DOC:".toList.take 2 := by
  cases entityType <;> decide

lemma typed_ne_docNode (entityType : EntityType) (value docId : Str) :
    typed entityType value ≠ docNode docId := by
  obtain ⟨hlength, hne⟩ := take_name entityType
  intro h
  have htake := congrArg (List.take 2) h
  rw [typed, docNode, List.take_append_of_le_length hlength,
    List.take_append_of_le_length (by decide)] at htake
  exact hne htake

lemma ne_docNode_of_nodeId {ent : GroundedEntity} {nodeId : Str} (h : ent.nodeId env = .ok nodeId)
    (docId : Str) : nodeId ≠ docNode docId := by
  obtain ⟨name, -, rfl⟩ := Except.of_map_eq_ok h
  exact typed_ne_docNode _ _ _

/-- A node is that of an entity, with at least one source, or that of a document. -/
structure Sourced (graph : Graph) : Prop where
  known : ∀ nodeId attrs, graph.nodes.get? nodeId = some attrs →
    attrs.entity ≠ none ∨ ∃ docId, nodeId = docNode docId
  named : ∀ nodeId attrs, graph.nodes.get? nodeId = some attrs → attrs.sourceDocs ≠ some []

lemma sourced_empty : Sourced {} where
  known _ _ h := by cases h
  named _ _ h := by cases h

lemma hasEntity_iff {graph : Graph} (hgraph : Sourced graph) {nodeId : Str} :
    HasEntity graph nodeId ↔ ∃ docId, IsSource graph nodeId docId := by
  constructor
  · rintro ⟨attrs, hget, hne⟩
    obtain ⟨ent, hent⟩ := Option.ne_none_iff_exists'.mp hne
    obtain ⟨docId, hdoc⟩ : ∃ docId, docId ∈ attrs.sourceDocs.getD [ent.sourceDoc] := by
      cases hdocs : attrs.sourceDocs with
      | none => exact ⟨ent.sourceDoc, by simp⟩
      | some docs =>
        refine List.exists_mem_of_ne_nil docs fun hnil => ?_
        exact hgraph.named nodeId attrs hget (by rw [hdocs, hnil])
    exact ⟨docId, attrs, ent, hget, hent, hdoc⟩
  · rintro ⟨docId, attrs, ent, hget, hent, -⟩
    exact ⟨attrs, hget, by simp [hent]⟩

/-- Adding an entity adds its document to the sources of its node. -/
lemma addEntity_adds {graph graph' : Graph} (hgraph : Sourced graph) {ent : GroundedEntity}
    (h : graph.addEntity env ent = .ok graph') :
    Sourced graph' ∧ graph'.edges = graph.edges ∧ ∀ nodeId docId, IsSource graph' nodeId docId ↔
      IsSource graph nodeId docId ∨ ent.nodeId env = .ok nodeId ∧ ent.sourceDoc = docId := by
  obtain ⟨id, hid, h⟩ := Except.of_map_eq_ok h
  obtain ⟨attrs, rfl, ent', hent', hne, hdocs⟩ : ∃ attrs : NodeAttrs,
      graph' = { graph with nodes := graph.nodes.set id attrs } ∧ ∃ ent', attrs.entity = some ent' ∧
        attrs.sourceDocs ≠ some [] ∧ ∀ docId, docId ∈ attrs.sourceDocs.getD [ent'.sourceDoc] ↔
          IsSource graph id docId ∨ ent.sourceDoc = docId := by
    cases hget : graph.nodes.get? id with
    | none =>
      rw [hget] at h
      refine ⟨_, h.symm, ent, rfl, by simp, fun docId => ?_⟩
      simp [IsSource, hget, eq_comm]
    | some existing =>
      rw [hget] at h
      obtain ⟨ent', hent'⟩ := Option.ne_none_iff_exists'.mp
        ((hgraph.known id existing hget).resolve_right (not_exists.mpr (ne_docNode_of_nodeId hid)))
      refine ⟨_, h.symm, ent', hent', ?_, fun docId => ?_⟩
      · simp only [ne_eq, Option.some.injEq]
        split_ifs with hmem
        · exact List.ne_nil_of_mem hmem
        · simp
      · have hsource : IsSource graph id docId ↔
            docId ∈ existing.sourceDocs.getD [(existing.entity.map (·.sourceDoc)).getD []] := by
          simp [IsSource, hget, hent']
        rw [hsource, Option.getD_some]
        split_ifs with hmem
        · constructor
          · exact .inl
          · rintro (hdoc | rfl)
            · exact hdoc
            · exact hmem
        · simp [eq_comm]
  refine ⟨⟨fun nodeId attrs' hget => ?_, fun nodeId attrs' hget => ?_⟩, rfl, fun nodeId docId => ?_⟩
  · rw [Dict.get?_set] at hget
    split_ifs at hget with hsame
    · cases hget
      exact .inl (by simp [hent'])
    · exact hgraph.known nodeId attrs' hget
  · rw [Dict.get?_set] at hget
    split_ifs at hget with hsame
    · cases hget
      exact hne
    · exact hgraph.named nodeId attrs' hget
  · by_cases hsame : id = nodeId
    · subst hsame
      simp only [IsSource, Dict.get?_set, if_pos, Option.some.injEq, exists_and_left, hid,
        true_and, exists_eq_left', hent', hdocs docId]
    · have hother : ent.nodeId env ≠ .ok nodeId := by simpa [hid] using hsame
      simp only [IsSource, Dict.get?_set, if_neg hsame, hother, false_and, or_false]

/-! ### Documents -/

/-- The entities of the document can be extracted and named. -/
def Readable (env : Env) (entry : Str × List Extraction) : Prop :=
  ∃ entities, extractEntities env entry.2 entry.1 = .ok entities ∧
    ∀ ent ∈ entities, ∃ nodeId, ent.nodeId env = .ok nodeId

/-- Collecting a document adds it to the sources of its entities. -/
lemma collect_adds {state state' : Dict Str (List GroundedEntity) × Graph}
    {entry : Str × List Extraction} (hgraph : Sourced state.2)
    (h : collect env state entry = .ok state') :
    (Sourced state'.2 ∧ state'.2.edges = state.2.edges) ∧ ∀ c : Str × Str, IsSource state'.2 c.1 c.2 ↔
      IsSource state.2 c.1 c.2 ∨ entry.1 = c.2 ∧ Has env entry c.1 := by
  obtain ⟨entities, hextract, h⟩ := Except.of_bind_eq_ok h
  obtain ⟨graph, hfold, h⟩ := Except.of_bind_eq_ok h
  cases h
  obtain ⟨hkept, hadds⟩ := @List.adds_of_foldlM_ok _ _ _ _ (Graph.addEntity env)
    (fun g => Sourced g ∧ g.edges = state.2.edges) (fun g c => IsSource g c.1 c.2)
    (fun ent (c : Str × Str) => ent.nodeId env = .ok c.1 ∧ ent.sourceDoc = c.2) entities (by
      intro g hg ent _ g' h
      obtain ⟨hsourced, hedges, hadds⟩ := addEntity_adds hg.1 h
      exact ⟨⟨hsourced, hedges.trans hg.2⟩, fun c => hadds c.1 c.2⟩) _ _ ⟨hgraph, rfl⟩ hfold
  refine ⟨hkept, fun c => (hadds c).trans (or_congr_right ?_)⟩
  constructor
  · rintro ⟨ent, hent, hid, hdoc⟩
    have hfound := (mem_extractEntities hextract).mp hent
    exact ⟨hfound.sourceDoc.symm.trans hdoc, ent, hfound, hid⟩
  · rintro ⟨hdoc, ent, hfound, hid⟩
    exact ⟨ent, (mem_extractEntities hextract).mpr hfound, hid, hfound.sourceDoc.trans hdoc⟩

lemma readable_of_collect {state state' : Dict Str (List GroundedEntity) × Graph}
    {entry : Str × List Extraction} (h : collect env state entry = .ok state') :
    Readable env entry := by
  obtain ⟨entities, hextract, h⟩ := Except.of_bind_eq_ok h
  obtain ⟨graph, hfold, -⟩ := Except.of_bind_eq_ok h
  refine ⟨entities, hextract, fun ent hent => ?_⟩
  obtain ⟨g, g', hadd⟩ := List.forall_of_foldlM_ok hfold ent hent
  obtain ⟨nodeId, hid, -⟩ := Except.of_map_eq_ok hadd
  exact ⟨nodeId, hid⟩

/-- What is collected of a document does not depend on the graph. -/
lemma exists_collect {entry : Str × List Extraction} (h : Readable env entry) :
    ∃ entities, (∀ ent ∈ entities, ∃ nodeId, ent.nodeId env = .ok nodeId) ∧ ∀ state, ∃ graph,
      collect env state entry = .ok (state.1.set entry.1 entities, graph) := by
  obtain ⟨entities, hextract, hids⟩ := h
  refine ⟨entities, hids, fun state => ?_⟩
  obtain ⟨graph, hfold, -⟩ := @List.exists_foldlM_ok _ _ _ (Graph.addEntity env) (fun _ => True)
    entities (by
      intro g _ ent hent
      obtain ⟨nodeId, hid⟩ := hids ent hent
      rw [Graph.addEntity, hid, Except.map_eq_ok]
      exact ⟨_, rfl, trivial⟩) state.2 trivial
  exact ⟨graph, by rw [collect, hextract, Except.ok_bind, hfold]; rfl⟩

lemma collect_any_graph {byDoc : Dict Str (List Extraction)} {entities entities' graph graph'}
    (h : byDoc.foldlM (collect env) (entities, graph) = .ok (entities', graph')) (start : Graph) :
    ∃ graph', byDoc.foldlM (collect env) (entities, start) = .ok (entities', graph') := by
  induction byDoc generalizing entities graph start with
  | nil =>
    cases h
    exact ⟨start, rfl⟩
  | cons entry byDoc ih =>
    rw [List.foldlM_cons] at h
    obtain ⟨mid, hmid, h⟩ := Except.of_bind_eq_ok h
    obtain ⟨found, -, hcollect⟩ := exists_collect (readable_of_collect hmid)
    obtain ⟨g, hg⟩ := hcollect (entities, graph)
    obtain ⟨g', hg'⟩ := hcollect (entities, start)
    obtain rfl : mid = _ := Except.ok.inj (hmid.symm.trans hg)
    obtain ⟨graph', hgraph'⟩ := ih h g'
    exact ⟨graph', by rw [List.foldlM_cons, hg', Except.ok_bind]; exact hgraph'⟩

/-! ### One call -/

/-- A call succeeds if all documents can be read. -/
lemma build_ok_iff {graph : Graph} {byDoc : Dict Str (List Extraction)} :
    (∃ built, build env graph byDoc = .ok built) ↔ ∀ entry ∈ byDoc, Readable env entry := by
  constructor
  · rintro ⟨built, h⟩ entry hentry
    obtain ⟨collected, hcollect, -⟩ := Except.of_bind_eq_ok h
    obtain ⟨state, state', hstep⟩ := List.forall_of_foldlM_ok hcollect entry hentry
    exact readable_of_collect hstep
  · intro hall
    obtain ⟨collected, hcollect, hids⟩ := @List.exists_foldlM_ok _ _ _ (collect env)
      (fun state => ∀ docEntry ∈ state.1, ∀ ent ∈ docEntry.2, ∃ nodeId, ent.nodeId env = .ok nodeId)
      byDoc (by
        intro state hstate entry hentry
        obtain ⟨entities, hids, hcollect⟩ := exists_collect (hall entry hentry)
        obtain ⟨g, hg⟩ := hcollect state
        refine ⟨_, hg, fun docEntry hmem => ?_⟩
        rcases Dict.mem_set hmem with rfl | hold
        · exact hids
        · exact hstate docEntry hold) ([], graph) (List.forall_mem_nil _)
    obtain ⟨named, hnamed, -⟩ : ∃ named, nameAll env (collected.1.flatMap Prod.snd) = .ok named ∧
        ∀ n ∈ named, True := by
      refine List.mapM_ok_iff.mpr fun ent hent => ?_
      obtain ⟨docEntry, hmem, hent⟩ := List.mem_flatMap.mp hent
      obtain ⟨nodeId, hid⟩ := hids docEntry hmem ent hent
      obtain ⟨name, hname, -⟩ := Except.of_map_eq_ok hid
      exact ⟨(name, ent), by rw [hname, Except.map_eq_ok], trivial⟩
    rw [build, hcollect, Except.ok_bind, inferRelationships, hnamed, Except.map_eq_ok,
      Except.ok_bind]
    exact ⟨_, rfl⟩

/-- A node without an entity has no sources. -/
lemma ensureNode_adds {graph : Graph} (hgraph : Sourced graph) {id : Str} {attrs : NodeAttrs}
    (hid : (∃ docId, id = docNode docId) ∨ HasEntity graph id) (hentity : attrs.entity = none)
    (hdocs : attrs.sourceDocs = none) :
    Sourced (graph.ensureNode id attrs) ∧ ∀ nodeId docId,
      IsSource (graph.ensureNode id attrs) nodeId docId ↔ IsSource graph nodeId docId := by
  rw [Graph.ensureNode]
  cases hget : graph.nodes.get? id with
  | some _ => exact ⟨hgraph, fun _ _ => .rfl⟩
  | none =>
    have hdoc : ∃ docId, id = docNode docId := by
      refine hid.resolve_right ?_
      rintro ⟨attrs', hget', -⟩
      rw [hget] at hget'
      cases hget'
    refine ⟨⟨fun nodeId attrs' hget' => ?_, fun nodeId attrs' hget' => ?_⟩, fun nodeId docId => ?_⟩
    · rw [Dict.get?_set] at hget'
      split_ifs at hget' with hsame
      · exact .inr (hsame ▸ hdoc)
      · exact hgraph.known nodeId attrs' hget'
    · rw [Dict.get?_set] at hget'
      split_ifs at hget' with hsame
      · cases hget'
        simp [hdocs]
      · exact hgraph.named nodeId attrs' hget'
    · by_cases hsame : id = nodeId
      · subst hsame
        simp [IsSource, Dict.get?_set, hget, hentity]
      · simp only [IsSource, Dict.get?_set, if_neg hsame]

/-- Links change no source, and the edges they add are theirs. -/
lemma links_add {entries : List (Relationship × Str)} {graph : Graph} (hgraph : Sourced graph)
    (hsource : ∀ entry ∈ entries, HasEntity graph entry.1.source) :
    Sourced (entries.foldl link graph) ∧
      (∀ nodeId docId, IsSource (entries.foldl link graph) nodeId docId ↔
        IsSource graph nodeId docId) ∧
      ∀ pair, (∃ attrs, (entries.foldl link graph).edges.get? pair = some attrs) ↔
        (∃ attrs, graph.edges.get? pair = some attrs) ∨
          ∃ entry ∈ entries, pair = s(entry.1.source, docNode entry.2) := by
  induction entries generalizing graph with
  | nil => exact ⟨hgraph, fun _ _ => .rfl, by simp⟩
  | cons entry entries ih =>
    obtain ⟨h₁, hsource₁⟩ := @ensureNode_adds graph hgraph (docNode entry.2)
      { document := some entry.2 } (.inl ⟨_, rfl⟩) rfl rfl
    have hhas := hasEntity_ensureNode (hsource entry List.mem_cons_self) (docNode entry.2)
      { document := some entry.2 }
    obtain ⟨h₂, hsource₂⟩ := @ensureNode_adds _ h₁ entry.1.source {} (.inr hhas) rfl rfl
    obtain ⟨h₃, hsource₃⟩ := @ensureNode_adds _ h₂ (docNode entry.2) {} (.inl ⟨_, rfl⟩) rfl rfl
    have hlink : Sourced (link graph entry) := ⟨h₃.known, h₃.named⟩
    have hsame : ∀ nodeId docId, IsSource (link graph entry) nodeId docId ↔
        IsSource graph nodeId docId := by
      intro nodeId docId
      rw [← hsource₁, ← hsource₂, ← hsource₃]
      rfl
    obtain ⟨hsourced, hsources, hedges⟩ := ih hlink fun e he =>
      hasEntity_link (hsource e (List.mem_cons_of_mem _ he)) entry
    refine ⟨hsourced, fun nodeId docId => (hsources nodeId docId).trans (hsame nodeId docId),
      fun pair => (hedges pair).trans ?_⟩
    rw [edges_link, Dict.get?_set, List.exists_mem_cons_iff, ← or_assoc]
    refine or_congr_left ?_
    split_ifs with hpair
    · simp [hpair]
    · simp [Ne.symm hpair]

/-- The documents of the relationships of a call are those that share an entity in it. -/
lemma mem_links_iff {byDoc : Dict Str (List Extraction)}
    {state : Dict Str (List GroundedEntity) × Graph} (h : Collected env byDoc state)
    (hnodup : (byDoc.map Prod.fst).Nodup) {relationships : List Relationship}
    (hinfer : inferRelationships env state.1 = .ok relationships) {nodeId docId : Str} :
    (∃ entry ∈ links relationships, entry.1.source = nodeId ∧ entry.2 = docId) ↔
      Shares env byDoc nodeId docId := by
  obtain ⟨named, hnamed, rfl⟩ := inferRelationships_eq hinfer
  have hhas : ∀ n ∈ named, ∃ entry ∈ byDoc, entry.1 = n.2.sourceDoc ∧ Has env entry (entityKey n) := by
    intro n hn
    obtain ⟨hent, hlower⟩ := (mem_nameAll hnamed).mp hn
    obtain ⟨entry, hentry, hfound⟩ := h.found hent
    refine ⟨entry, hentry, hfound.sourceDoc.symm, n.2, hfound, ?_⟩
    rw [GroundedEntity.nodeId, hlower]
    rfl
  constructor
  · rintro ⟨⟨rel, doc⟩, hmem, rfl, rfl⟩
    obtain ⟨rel', hrel, hmem⟩ := List.mem_flatMap.mp hmem
    obtain ⟨doc', hdoc, heq⟩ := List.mem_map.mp hmem
    cases heq
    obtain ⟨doc', hdoc', hne⟩ : ∃ doc' ∈ rel.docs, doc' ≠ doc := by
      obtain ⟨a, ha, b, hb, hab⟩ : ∃ a ∈ rel.docs, ∃ b ∈ rel.docs, a ≠ b := by
        rw [List.mem_append, List.mem_append] at hrel
        rcases hrel with (hrel | hrel) | hrel
        all_goals
          obtain ⟨-, -, -, -, hdocs⟩ := mem_ruleEdges hrel
          exact hdocs
      by_cases had : a = doc
      · exact ⟨b, hb, had ▸ hab.symm⟩
      · exact ⟨a, ha, had⟩
    obtain ⟨n, hn, hsource, rfl⟩ := exists_named_of_mem hrel hdoc
    obtain ⟨n', hn', hsource', rfl⟩ := exists_named_of_mem hrel hdoc'
    obtain ⟨entry, hentry, heq, hin⟩ := hhas n hn
    obtain ⟨entry', hentry', heq', hin'⟩ := hhas n' hn'
    exact ⟨entry, hentry, entry', hentry', heq, heq' ▸ hne, hsource ▸ hin, hsource' ▸ hin'⟩
  · rintro ⟨entry, hentry, entry', hentry', rfl, hne, ⟨ent, hfound, hid⟩, ent', hfound', hid'⟩
    have hmem : ∀ {entry ent}, entry ∈ byDoc → Found env entry ent → ent.nodeId env = .ok nodeId →
        ∃ n ∈ named, entityKey n = nodeId ∧ n.2.sourceDoc = entry.1 := by
      intro entry ent hentry hfound hid
      obtain ⟨name, hname, rfl⟩ := Except.of_map_eq_ok hid
      exact ⟨(name, ent), (mem_nameAll hnamed).mpr ⟨h.mem_of_found hnodup hentry hfound, hname⟩, rfl,
        hfound.sourceDoc⟩
    obtain ⟨n, hn, rfl, hdoc⟩ := hmem hentry hfound hid
    obtain ⟨n', hn', hkey, hdoc'⟩ := hmem hentry' hfound' hid'
    obtain ⟨g, hg, rel, hrel, hkeyg, hin⟩ := @exists_edgeOf env appearsIn id entityKey named n n' hn
      hn' hkey (by rw [hdoc, hdoc']; exact hne.symm)
    have hspec := edgeOf_spec hg hrel
    have hedge : rel ∈ ruleEdges env appearsIn id entityKey named :=
      List.mem_filterMap.mpr ⟨g, hg, hrel⟩
    refine ⟨(rel, entry.1), List.mem_flatMap.mpr ⟨rel, by simp [hedge], ?_⟩, ?_, rfl⟩
    · exact List.mem_map.mpr ⟨entry.1, hdoc ▸ hin, rfl⟩
    · exact hspec.1.trans hkeyg

/-- What a call adds: the documents to the sources of their entities, and the edges to the documents
that share an entity with another document of the call. -/
lemma build_adds {graph graph' : Graph} (hgraph : Sourced graph) {byDoc : Dict Str (List Extraction)}
    (hnodup : (byDoc.map Prod.fst).Nodup) {stats : Stats}
    (h : build env graph byDoc = .ok (graph', stats)) :
    Sourced graph' ∧
      (∀ nodeId docId, IsSource graph' nodeId docId ↔
        IsSource graph nodeId docId ∨ ∃ entry ∈ byDoc, entry.1 = docId ∧ Has env entry nodeId) ∧
      ∀ nodeId docId, Connected graph' nodeId docId ↔
        Connected graph nodeId docId ∨ Shares env byDoc nodeId docId := by
  obtain ⟨⟨entitiesByDoc, populated⟩, hcollect, h⟩ := Except.of_bind_eq_ok h
  obtain ⟨relationships, hinfer, h⟩ := Except.of_bind_eq_ok h
  cases h
  simp only [foldl_addRelationship]
  obtain ⟨⟨hsourced, hsame⟩, hadds⟩ := @List.adds_of_foldlM_ok _ _ _ _ (collect env)
    (fun state => Sourced state.2 ∧ state.2.edges = graph.edges)
    (fun state c => IsSource state.2 c.1 c.2)
    (fun entry (c : Str × Str) => entry.1 = c.2 ∧ Has env entry c.1) byDoc (by
      intro state hstate entry _ state' hstep
      obtain ⟨⟨hsourced, hedges⟩, hadds⟩ := collect_adds hstate.1 hstep
      exact ⟨⟨hsourced, hedges.trans hstate.2⟩, hadds⟩) ([], graph) _ ⟨hgraph, rfl⟩ hcollect
  -- the relationships are those of the same documents from an empty graph
  obtain ⟨start, hstart⟩ := collect_any_graph hcollect {}
  have hlinks := @mem_links_iff env byDoc _ (collected_foldlM hstart) hnodup relationships hinfer
  have hsource : ∀ entry ∈ links relationships, HasEntity populated entry.1.source := by
    intro entry hentry
    obtain ⟨docEntry, hmem, -, -, hdoc, -, hhas, -⟩ := hlinks.mp ⟨entry, hentry, rfl, rfl⟩
    exact (hasEntity_iff hsourced).mpr ⟨docEntry.1, (hadds (_, _)).mpr (.inr ⟨docEntry, hmem, rfl, hhas⟩)⟩
  obtain ⟨hlinked, hsources, hedges⟩ := links_add hsourced hsource
  refine ⟨hlinked, fun nodeId docId => (hsources nodeId docId).trans (hadds (nodeId, docId)),
    fun nodeId docId => ?_⟩
  rw [Connected, hedges, ← hlinks]
  simp only at hsame
  rw [hsame]
  refine or_congr_right ⟨?_, ?_⟩
  · rintro ⟨entry, hentry, hpair⟩
    rcases Sym2.eq_iff.mp hpair with ⟨hid, hdoc⟩ | ⟨-, hdoc⟩
    · exact ⟨entry, hentry, hid.symm, (List.append_cancel_left hdoc).symm⟩
    · obtain ⟨-, -, -, -, -, -, ⟨ent, -, hid⟩, -⟩ := hlinks.mp ⟨entry, hentry, rfl, rfl⟩
      exact absurd hdoc.symm (ne_docNode_of_nodeId hid docId)
  · rintro ⟨entry, hentry, rfl, rfl⟩
    exact ⟨entry, hentry, rfl⟩

/-! ### Several calls -/

/-- Calls that read their documents succeed, and add what each of them adds. -/
lemma buildAll_adds {graph graph' : Graph} (hgraph : Sourced graph)
    {calls : List (Dict Str (List Extraction))}
    (hnodup : ∀ byDoc ∈ calls, (byDoc.map Prod.fst).Nodup)
    (h : buildAll env graph calls = .ok graph') :
    Sourced graph' ∧
      (∀ nodeId docId, IsSource graph' nodeId docId ↔ IsSource graph nodeId docId ∨
        ∃ byDoc ∈ calls, ∃ entry ∈ byDoc, entry.1 = docId ∧ Has env entry nodeId) ∧
      ∀ nodeId docId, Connected graph' nodeId docId ↔
        Connected graph nodeId docId ∨ ∃ byDoc ∈ calls, Shares env byDoc nodeId docId := by
  have hstep : ∀ g, Sourced g → ∀ byDoc ∈ calls, ∀ g',
      (build env g byDoc).map Prod.fst = .ok g' → ∃ stats, build env g byDoc = .ok (g', stats) := by
    intro g _ byDoc _ g' hg
    obtain ⟨⟨g'', stats⟩, hbuild, rfl⟩ := Except.of_map_eq_ok hg
    exact ⟨stats, hbuild⟩
  have hsources := @List.adds_of_foldlM_ok _ _ _ _
    (fun graph byDoc => (build env graph byDoc).map Prod.fst) Sourced (fun g c => IsSource g c.1 c.2)
    (fun byDoc (c : Str × Str) => ∃ entry ∈ byDoc, entry.1 = c.2 ∧ Has env entry c.1) calls (by
      intro g hg byDoc hmem g' hg'
      obtain ⟨stats, hbuild⟩ := hstep g hg byDoc hmem g' hg'
      obtain ⟨hsourced, hsources, -⟩ := build_adds hg (hnodup byDoc hmem) hbuild
      exact ⟨hsourced, fun c => hsources c.1 c.2⟩) _ _ hgraph h
  have hedges := @List.adds_of_foldlM_ok _ _ _ _
    (fun graph byDoc => (build env graph byDoc).map Prod.fst) Sourced (fun g c => Connected g c.1 c.2)
    (fun byDoc (c : Str × Str) => Shares env byDoc c.1 c.2) calls (by
      intro g hg byDoc hmem g' hg'
      obtain ⟨stats, hbuild⟩ := hstep g hg byDoc hmem g' hg'
      obtain ⟨hsourced, -, hedges⟩ := build_adds hg (hnodup byDoc hmem) hbuild
      exact ⟨hsourced, fun c => hedges c.1 c.2⟩) _ _ hgraph h
  exact ⟨hsources.1, fun nodeId docId => hsources.2 (nodeId, docId),
    fun nodeId docId => hedges.2 (nodeId, docId)⟩

lemma exists_buildAll (graph : Graph) {calls : List (Dict Str (List Extraction))}
    (h : ∀ byDoc ∈ calls, ∀ entry ∈ byDoc, Readable env entry) :
    ∃ graph', buildAll env graph calls = .ok graph' := by
  obtain ⟨graph', hgraph', -⟩ := @List.exists_foldlM_ok _ _ _
    (fun graph byDoc => (build env graph byDoc).map Prod.fst) (fun _ => True) calls (by
      intro g _ byDoc hmem
      obtain ⟨built, hbuilt⟩ := (@build_ok_iff env g byDoc).mpr (h byDoc hmem)
      rw [hbuilt]
      exact ⟨built.1, rfl, trivial⟩) graph trivial
  exact ⟨graph', hgraph'⟩

/-- However the documents are spread over calls, the calls succeed if one call with all documents does,
and build the same nodes with the same sources. They build the same edges exactly if every document
that shares an entity with another one shares it with a document of its own call. -/
theorem buildAll_agrees_iff {byDoc : Dict Str (List Extraction)} (hnodup : (byDoc.map Prod.fst).Nodup)
    {calls : List (Dict Str (List Extraction))} (hcalls : calls.flatten.Perm byDoc) {graph : Graph}
    {stats : Stats} (h : build env {} byDoc = .ok (graph, stats)) :
    ∃ graph', buildAll env {} calls = .ok graph' ∧
      (∀ nodeId, HasEntity graph' nodeId ↔ HasEntity graph nodeId) ∧
      (∀ nodeId docId, IsSource graph' nodeId docId ↔ IsSource graph nodeId docId) ∧
      ((∀ nodeId docId, Connected graph' nodeId docId ↔ Connected graph nodeId docId) ↔
        ∀ nodeId docId, Shares env byDoc nodeId docId →
          ∃ call ∈ calls, Shares env call nodeId docId) := by
  have hmem : ∀ {entry}, entry ∈ byDoc ↔ ∃ call ∈ calls, entry ∈ call := by
    intro entry
    rw [← hcalls.mem_iff, List.mem_flatten]
  have hreadable := build_ok_iff.mp ⟨_, h⟩
  have hdistinct : ∀ call ∈ calls, (call.map Prod.fst).Nodup := by
    intro call hcall
    have hflat : (calls.flatten.map Prod.fst).Nodup := (hcalls.map Prod.fst).nodup_iff.mpr hnodup
    exact hflat.sublist ((List.sublist_flatten_of_mem hcall).map Prod.fst)
  obtain ⟨graph', hgraph'⟩ := @exists_buildAll env {} calls fun call hcall entry hentry =>
    hreadable entry (hmem.mpr ⟨call, hcall, hentry⟩)
  obtain ⟨hsourced, hsources, hedges⟩ := build_adds sourced_empty hnodup h
  obtain ⟨hsourced', hsources', hedges'⟩ := buildAll_adds sourced_empty hdistinct hgraph'
  have hsame : ∀ nodeId docId, IsSource graph' nodeId docId ↔ IsSource graph nodeId docId := by
    intro nodeId docId
    rw [hsources, hsources']
    refine or_congr_right ⟨?_, ?_⟩
    · rintro ⟨call, hcall, entry, hentry, hdoc, hhas⟩
      exact ⟨entry, hmem.mpr ⟨call, hcall, hentry⟩, hdoc, hhas⟩
    · rintro ⟨entry, hentry, hdoc, hhas⟩
      obtain ⟨call, hcall, hentry⟩ := hmem.mp hentry
      exact ⟨call, hcall, entry, hentry, hdoc, hhas⟩
  have hnone : ∀ nodeId docId, ¬ Connected {} nodeId docId := by
    rintro nodeId docId ⟨attrs, hget⟩
    cases hget
  refine ⟨graph', hgraph', fun nodeId => ?_, hsame, ?_⟩
  · rw [hasEntity_iff hsourced, hasEntity_iff hsourced']
    exact exists_congr (hsame nodeId)
  · refine forall_congr' fun nodeId => forall_congr' fun docId => ?_
    rw [hedges, hedges', or_iff_right (hnone nodeId docId), or_iff_right (hnone nodeId docId)]
    refine ⟨Iff.mpr, fun hall => ⟨?_, hall⟩⟩
    -- what is shared in a call is shared
    rintro ⟨call, hcall, entry, hentry, entry', hentry', hshares⟩
    exact ⟨entry, hmem.mpr ⟨call, hcall, hentry⟩, entry', hmem.mpr ⟨call, hcall, hentry'⟩, hshares⟩

/-- Two invoices of one vendor, each in a call of its own. -/
theorem buildAll_agrees_iff_apart : ∃ graph stats,
    build Sample.plain {} Sample.byDoc = .ok (graph, stats) ∧
    ∃ graph', buildAll Sample.plain {} (Sample.byDoc.map fun entry => [entry]) = .ok graph' ∧
      (∀ nodeId, HasEntity graph' nodeId ↔ HasEntity graph nodeId) ∧
      (∀ nodeId docId, IsSource graph' nodeId docId ↔ IsSource graph nodeId docId) ∧
      ((∀ nodeId docId, Connected graph' nodeId docId ↔ Connected graph nodeId docId) ↔
        ∀ nodeId docId, Shares Sample.plain Sample.byDoc nodeId docId →
          ∃ call ∈ Sample.byDoc.map fun entry => [entry], Shares Sample.plain call nodeId docId) :=
  ⟨_, _, rfl, buildAll_agrees_iff (by decide) (.refl _) rfl⟩

/-- In one call they are connected by their vendor, in two calls they are not. -/
theorem vendor_not_connected : ∃ graph stats graph',
    build Sample.plain {} Sample.byDoc = .ok (graph, stats) ∧
      buildAll Sample.plain {} (Sample.byDoc.map fun entry => [entry]) = .ok graph' ∧
      Connected graph "ORG:acme".toList "a".toList ∧ ¬ Connected graph' "ORG:acme".toList "a".toList := by
  refine ⟨_, _, _, rfl, rfl, ⟨_, rfl⟩, ?_⟩
  rintro ⟨attrs, hget⟩
  cases hget

end AxiomGrid.Kairo.KnowledgeGraph

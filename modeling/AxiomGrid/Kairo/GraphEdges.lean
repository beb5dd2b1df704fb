import AxiomGrid.Kairo.KnowledgeGraph

/-!
# The edges of the knowledge graph

Every edge of a built graph leads from the node of an entity to a document in which the entity was
found. All relationships are kept exactly if no organization and no jurisdiction is found in two
documents: for those two rules fire, and the edge carries the second one only.
-/

namespace AxiomGrid.Kairo.KnowledgeGraph

open Pipeline

variable {env : Env}

/-! ### Entities of a document -/

/-- The entity is found in the document, in an extraction that is grounded. -/
def Found (env : Env) (entry : Str × List Extraction) (ent : GroundedEntity) : Prop :=
  ∃ ext ∈ entry.2, ext.method ≠ .block ∧ ∃ found, entitiesOf env entry.1 ext = .ok found ∧ ent ∈ found

lemma entitiesOf_spec {docId : Str} {ext : Extraction} {found : List GroundedEntity}
    (h : entitiesOf env docId ext = .ok found) {ent : GroundedEntity} (hent : ent ∈ found) :
    ext.method ≠ .block ∧ ent.sourceDoc = docId := by
  rw [entitiesOf] at h
  split_ifs at h with hblock
  · cases h
    cases hent
  · obtain ⟨place, -, rfl⟩ := Except.of_map_eq_ok h
    obtain ⟨mention, -, rfl⟩ := List.mem_map.mp hent
    exact ⟨hblock, rfl⟩

lemma Found.sourceDoc {entry : Str × List Extraction} {ent : GroundedEntity}
    (h : Found env entry ent) : ent.sourceDoc = entry.1 := by
  obtain ⟨ext, -, -, found, hfound, hent⟩ := h
  exact (entitiesOf_spec hfound hent).2

lemma mem_extractEntities {extractions : List Extraction} {docId : Str} {entities : List GroundedEntity}
    (h : extractEntities env extractions docId = .ok entities) {ent : GroundedEntity} :
    ent ∈ entities ↔ Found env (docId, extractions) ent := by
  obtain ⟨lists, hlists, rfl⟩ := Except.of_map_eq_ok h
  rw [List.mem_flatten]
  constructor
  · rintro ⟨found, hfound, hent⟩
    obtain ⟨ext, hext, heq⟩ := List.exists_of_mem_mapM hlists hfound
    exact ⟨ext, hext, (entitiesOf_spec heq hent).1, found, heq, hent⟩
  · rintro ⟨ext, hext, -, found, heq, hent⟩
    obtain ⟨found', hfound', heq'⟩ := List.exists_mem_of_mapM hlists hext
    rw [heq] at heq'
    cases heq'
    exact ⟨found, hfound', hent⟩

/-! ### The rules -/

/-- A relationship links the documents of the entities with one key. -/
lemma edgeOf_spec {relation : Str} {source : Str → Str} {key : Named → Str} {named : List Named}
    {entry : Str × List Named} (hentry : entry ∈ Dict.group key named) {edge : Relationship}
    (h : edgeOf env relation source entry = some edge) :
    edge.source = source entry.1 ∧ edge.relation = relation ∧
      (∀ docId ∈ edge.docs, ∃ n ∈ named, key n = entry.1 ∧ n.2.sourceDoc = docId) ∧
      ∃ a ∈ edge.docs, ∃ b ∈ edge.docs, a ≠ b := by
  obtain ⟨k, ns⟩ := entry
  obtain ⟨rfl, -⟩ := Dict.mem_group.mp hentry
  rw [edgeOf] at h
  split at h
  · rename_i first second more hents
    simp only at h
    split_ifs at h with hlong
    cases h
    refine ⟨rfl, rfl, fun docId hdoc => ?_, ?_⟩
    · rw [(env.setList_perm _).mem_iff, List.mem_dedup, ← hents, List.map_map, List.mem_map] at hdoc
      obtain ⟨n, hn, rfl⟩ := hdoc
      rw [List.mem_filter, decide_eq_true_eq] at hn
      exact ⟨n, hn.1, hn.2, rfl⟩
    · have hnodup := (env.setList_perm
        ((first :: second :: more).map (·.sourceDoc))).nodup_iff.mpr (List.nodup_dedup _)
      generalize env.setList ((first :: second :: more).map (·.sourceDoc)) = docs at hlong hnodup
      match docs, hlong, hnodup with
      | a :: b :: _, _, hnodup =>
        refine ⟨a, by simp, b, by simp, ?_⟩
        rintro rfl
        simp at hnodup
  · cases h

/-- Entities with one key from two documents are linked. -/
lemma exists_edgeOf (relation : Str) (source : Str → Str) {key : Named → Str} {named : List Named}
    {n n' : Named} (hn : n ∈ named) (hn' : n' ∈ named) (hkey : key n' = key n)
    (hdoc : n.2.sourceDoc ≠ n'.2.sourceDoc) :
    ∃ entry ∈ Dict.group key named, ∃ edge, edgeOf env relation source entry = some edge ∧
      entry.1 = key n ∧ n.2.sourceDoc ∈ edge.docs := by
  have htwo : ∀ {xs : List Str} {a b : Str}, a ∈ xs → b ∈ xs → a ≠ b → 1 < xs.length := by
    intro xs a b ha hb hab
    match xs with
    | [] => cases ha
    | [c] => exact absurd ((List.mem_singleton.mp ha).trans (List.mem_singleton.mp hb).symm) hab
    | _ :: _ :: _ => simp
  set ns := named.filter fun m => key m = key n with hns
  have hmem : n ∈ ns := List.mem_filter.mpr ⟨hn, decide_eq_true rfl⟩
  have hmem' : n' ∈ ns := List.mem_filter.mpr ⟨hn', decide_eq_true hkey⟩
  have hin : ∀ m ∈ ns, m.2.sourceDoc ∈ env.setList ((ns.map Prod.snd).map (·.sourceDoc)) := by
    intro m hm
    rw [(env.setList_perm _).mem_iff, List.mem_dedup]
    exact List.mem_map_of_mem (List.mem_map_of_mem hm)
  have hlong := htwo (hin n hmem) (hin n' hmem') hdoc
  have hfirst := hin n hmem
  refine ⟨(key n, ns), Dict.mem_group.mpr ⟨hns, List.ne_nil_of_mem hmem⟩, ?_⟩
  have hsources : 1 < (ns.map Prod.snd).length := by
    have hsource := htwo (List.mem_map_of_mem (f := fun m : Named => m.2.sourceDoc) hmem)
      (List.mem_map_of_mem (f := fun m : Named => m.2.sourceDoc) hmem') hdoc
    simpa using hsource
  rw [edgeOf]
  match hents : ns.map Prod.snd, hsources with
  | first :: second :: more, _ =>
    rw [hents] at hlong hfirst
    exact ⟨_, if_pos hlong, rfl, hfirst⟩

/-- No relationship of a rule is taken for one that was seen: each group has its own key. -/
lemma foldl_inferStep {relation : Str} {source : Str → Str} {groups : List (Str × List Named)}
    {acc : Inferred} (hnodup : (groups.map Prod.fst).Nodup)
    (hfresh : ∀ seen ∈ acc.2, seen.2.1 = relation → seen.1 ∉ groups.map Prod.fst) :
    (groups.foldl (inferStep env relation source) acc).1 =
        acc.1 ++ groups.filterMap (edgeOf env relation source) ∧
      ∀ seen ∈ (groups.foldl (inferStep env relation source) acc).2,
        seen ∈ acc.2 ∨ seen.2.1 = relation := by
  induction groups generalizing acc with
  | nil => exact ⟨by simp, fun seen hseen => .inl hseen⟩
  | cons entry groups ih =>
    rw [List.map_cons, List.nodup_cons] at hnodup
    simp only [List.map_cons, List.mem_cons, not_or] at hfresh
    rw [List.foldl_cons, inferStep]
    cases hedge : edgeOf env relation source entry with
    | none =>
      rw [List.filterMap_cons_none hedge]
      exact ih hnodup.2 fun seen hseen heq => (hfresh seen hseen heq).2
    | some edge =>
      have hnew : (entry.1, relation, joinSorted edge.docs) ∉ acc.2 :=
        fun hseen => (hfresh _ hseen rfl).1 rfl
      simp only [if_neg hnew]
      obtain ⟨hedges, hseen⟩ := @ih (acc.1 ++ [edge], acc.2 ++ [(entry.1, relation,
        joinSorted edge.docs)]) hnodup.2 (by
          intro seen hseen heq
          rw [List.mem_append, List.mem_singleton] at hseen
          rcases hseen with hseen | rfl
          · exact (hfresh seen hseen heq).2
          · exact hnodup.1)
      refine ⟨?_, fun seen h => ?_⟩
      · rw [hedges, List.filterMap_cons_some hedge, List.append_assoc]
        rfl
      · rcases hseen seen h with h | h
        · rw [List.mem_append, List.mem_singleton] at h
          exact h.imp_right fun h => by rw [h]
        · exact .inr h

/-- The relationships of a rule. -/
def ruleEdges (env : Env) (relation : Str) (source : Str → Str) (key : Named → Str)
    (named : List Named) : List Relationship :=
  (Dict.group key named).filterMap (edgeOf env relation source)

lemma rule_spec {relation : Str} {source : Str → Str} {key : Named → Str} {named : List Named}
    {acc : Inferred} (hfresh : ∀ seen ∈ acc.2, seen.2.1 ≠ relation) :
    (rule env relation source key named acc).1 =
        acc.1 ++ ruleEdges env relation source key named ∧
      ∀ seen ∈ (rule env relation source key named acc).2, seen ∈ acc.2 ∨ seen.2.1 = relation :=
  foldl_inferStep (Dict.nodup_group named) fun seen hseen heq => absurd heq (hfresh seen hseen)

/-- The key of an entity in the first rule. -/
def entityKey (n : Named) : Str := typed n.2.entityType n.1

def ofType (entityType : EntityType) (named : List Named) : List Named :=
  named.filter fun n => n.2.entityType = entityType

/-- The three rules, one after the other. -/
lemma inferRelationships_eq {entitiesByDoc : Dict Str (List GroundedEntity)}
    {relationships : List Relationship}
    (h : inferRelationships env entitiesByDoc = .ok relationships) :
    ∃ named, nameAll env (entitiesByDoc.flatMap Prod.snd) = .ok named ∧
      relationships = ruleEdges env appearsIn id entityKey named ++
        ruleEdges env suppliesTo (typed .org) Prod.fst (ofType .org named) ++
        ruleEdges env governedBy (typed .jurisdiction) Prod.fst (ofType .jurisdiction named) := by
  obtain ⟨named, hnamed, rfl⟩ := Except.of_map_eq_ok h
  refine ⟨named, hnamed, ?_⟩
  obtain ⟨h₁, hseen₁⟩ := @rule_spec env appearsIn id entityKey named ([], []) nofun
  obtain ⟨h₂, hseen₂⟩ := @rule_spec env suppliesTo (typed .org) Prod.fst (ofType .org named)
    (appearsInRule env named ([], [])) (by
      intro seen hseen
      rcases hseen₁ seen hseen with h | h
      · cases h
      · rw [h]
        decide)
  obtain ⟨h₃, -⟩ := @rule_spec env governedBy (typed .jurisdiction) Prod.fst
    (ofType .jurisdiction named) (suppliesToRule env named (appearsInRule env named ([], []))) (by
      intro seen hseen
      rcases hseen₂ seen hseen with h | h
      · rcases hseen₁ seen h with h | h
        · cases h
        · rw [h]
          decide
      · rw [h]
        decide)
  exact h₃.trans (congrArg (· ++ _) (h₂.trans (congrArg (· ++ _) h₁)))

lemma mem_ruleEdges {relation : Str} {source : Str → Str} {key : Named → Str} {named : List Named}
    {edge : Relationship} (h : edge ∈ ruleEdges env relation source key named) :
    ∃ k, edge.source = source k ∧ edge.relation = relation ∧
      (∀ docId ∈ edge.docs, ∃ n ∈ named, key n = k ∧ n.2.sourceDoc = docId) ∧
      ∃ a ∈ edge.docs, ∃ b ∈ edge.docs, a ≠ b := by
  obtain ⟨entry, hentry, hedge⟩ := List.mem_filterMap.mp h
  exact ⟨entry.1, edgeOf_spec hentry hedge⟩

lemma mem_nameAll {entities : List GroundedEntity} {named : List Named}
    (h : nameAll env entities = .ok named) {n : Named} :
    n ∈ named ↔ n.2 ∈ entities ∧ n.2.lowerValue env = .ok n.1 := by
  constructor
  · intro hn
    obtain ⟨ent, hent, heq⟩ := List.exists_of_mem_mapM h hn
    obtain ⟨name, hname, rfl⟩ := Except.of_map_eq_ok heq
    exact ⟨hent, hname⟩
  · rintro ⟨hent, hname⟩
    obtain ⟨n', hn', heq⟩ := List.exists_mem_of_mapM h hent
    rw [hname] at heq
    cases heq
    exact hn'

/-- A relationship leads from the node of an entity of each of its documents. -/
lemma exists_named_of_mem {named : List Named} {rel : Relationship}
    (h : rel ∈ ruleEdges env appearsIn id entityKey named ++
      ruleEdges env suppliesTo (typed .org) Prod.fst (ofType .org named) ++
      ruleEdges env governedBy (typed .jurisdiction) Prod.fst (ofType .jurisdiction named))
    {docId : Str} (hdoc : docId ∈ rel.docs) :
    ∃ n ∈ named, rel.source = entityKey n ∧ n.2.sourceDoc = docId := by
  have htyped : ∀ {t : EntityType} {relation : Str},
      rel ∈ ruleEdges env relation (typed t) Prod.fst (ofType t named) →
      ∃ n ∈ named, rel.source = entityKey n ∧ n.2.sourceDoc = docId := by
    intro t relation hrel
    obtain ⟨k, hsource, -, hdocs, -⟩ := mem_ruleEdges hrel
    obtain ⟨n, hn, rfl, hn'⟩ := hdocs docId hdoc
    rw [ofType, List.mem_filter, decide_eq_true_eq] at hn
    exact ⟨n, hn.1, by rw [hsource, entityKey, hn.2], hn'⟩
  rw [List.mem_append, List.mem_append] at h
  rcases h with (h | h) | h
  · obtain ⟨k, hsource, -, hdocs, -⟩ := mem_ruleEdges h
    obtain ⟨n, hn, rfl, hn'⟩ := hdocs docId hdoc
    exact ⟨n, hn, hsource, hn'⟩
  · exact htyped h
  · exact htyped h

/-! ### The nodes of the entities -/

/-- The node of an entity. -/
def HasEntity (graph : Graph) (nodeId : Str) : Prop :=
  ∃ attrs, graph.nodes.get? nodeId = some attrs ∧ attrs.entity ≠ none

/-- All nodes are of entities, and there are no edges yet. -/
structure EntitiesOnly (graph : Graph) : Prop where
  entity : ∀ nodeId attrs, graph.nodes.get? nodeId = some attrs → attrs.entity ≠ none
  edges : graph.edges = []

lemma addEntity_spec {graph graph' : Graph} (honly : EntitiesOnly graph) {ent : GroundedEntity}
    (h : graph.addEntity env ent = .ok graph') :
    EntitiesOnly graph' ∧ (∃ nodeId, ent.nodeId env = .ok nodeId ∧ HasEntity graph' nodeId) ∧
      ∀ nodeId, HasEntity graph nodeId → HasEntity graph' nodeId := by
  obtain ⟨nodeId, hid, hgraph⟩ := Except.of_map_eq_ok h
  obtain ⟨attrs, hattrs, rfl⟩ : ∃ attrs : NodeAttrs, attrs.entity ≠ none ∧
      graph' = { graph with nodes := graph.nodes.set nodeId attrs } := by
    cases hget : graph.nodes.get? nodeId with
    | none =>
      rw [hget] at hgraph
      exact ⟨_, Option.some_ne_none ent, hgraph.symm⟩
    | some existing =>
      rw [hget] at hgraph
      refine ⟨_, ?_, hgraph.symm⟩
      exact honly.entity nodeId existing hget
  refine ⟨⟨?_, honly.edges⟩, ⟨nodeId, hid, attrs, ?_, hattrs⟩, ?_⟩
  · intro id attrs' hget
    rw [Dict.get?_set] at hget
    split_ifs at hget
    · exact Option.some.inj hget ▸ hattrs
    · exact honly.entity id attrs' hget
  · rw [Dict.get?_set, if_pos rfl]
  · rintro id ⟨attrs', hget, hne⟩
    by_cases heq : nodeId = id
    · exact ⟨attrs, by rw [Dict.get?_set, if_pos heq], hattrs⟩
    · exact ⟨attrs', by rw [Dict.get?_set, if_neg heq]; exact hget, hne⟩

lemma foldlM_addEntity_spec {entities : List GroundedEntity} {graph graph' : Graph}
    (honly : EntitiesOnly graph) (h : entities.foldlM (Graph.addEntity env) graph = .ok graph') :
    EntitiesOnly graph' ∧
      (∀ ent ∈ entities, ∃ nodeId, ent.nodeId env = .ok nodeId ∧ HasEntity graph' nodeId) ∧
      ∀ nodeId, HasEntity graph nodeId → HasEntity graph' nodeId := by
  induction entities generalizing graph with
  | nil =>
    cases h
    exact ⟨honly, nofun, fun _ h => h⟩
  | cons ent entities ih =>
    rw [List.foldlM_cons] at h
    obtain ⟨mid, hmid, h⟩ := Except.of_bind_eq_ok h
    obtain ⟨honly', ⟨nodeId, hid, hnode⟩, hkept⟩ := addEntity_spec honly hmid
    obtain ⟨honly'', hall, hkept'⟩ := ih honly' h
    refine ⟨honly'', List.forall_mem_cons.mpr ⟨⟨nodeId, hid, hkept' _ hnode⟩, hall⟩, ?_⟩
    exact fun nodeId h => hkept' nodeId (hkept nodeId h)

/-- What the loop over the documents has made of some of them. -/
structure Collected (env : Env) (byDoc : Dict Str (List Extraction))
    (state : Dict Str (List GroundedEntity) × Graph) : Prop where
  only : EntitiesOnly state.2
  entities : ∀ entry ∈ state.1, ∃ extractions, (entry.1, extractions) ∈ byDoc ∧
    extractEntities env extractions entry.1 = .ok entry.2
  nodes : ∀ entry ∈ state.1, ∀ ent ∈ entry.2,
    ∃ nodeId, ent.nodeId env = .ok nodeId ∧ HasEntity state.2 nodeId
  kept : (byDoc.map Prod.fst).Nodup → ∀ entry ∈ byDoc, ∃ entities,
    state.1.get? entry.1 = some entities ∧ extractEntities env entry.2 entry.1 = .ok entities

lemma Collected.step {byDoc : Dict Str (List Extraction)} {entry : Str × List Extraction}
    {state state' : Dict Str (List GroundedEntity) × Graph} (hstate : Collected env byDoc state)
    (h : collect env state entry = .ok state') : Collected env (byDoc ++ [entry]) state' := by
  obtain ⟨entities, hentities, h⟩ := Except.of_bind_eq_ok h
  obtain ⟨graph, hgraph, h⟩ := Except.of_bind_eq_ok h
  cases h
  obtain ⟨honly, hnodes, hkept⟩ := foldlM_addEntity_spec hstate.only hgraph
  refine ⟨honly, fun docEntry hentry => ?_, fun docEntry hentry ent hent => ?_,
    fun hnodup docEntry hentry => ?_⟩
  · rcases Dict.mem_set hentry with rfl | hold
    · exact ⟨entry.2, by simp, hentities⟩
    · obtain ⟨extractions, hmem, heq⟩ := hstate.entities docEntry hold
      exact ⟨extractions, List.mem_append_left _ hmem, heq⟩
  · rcases Dict.mem_set hentry with rfl | hold
    · exact hnodes ent hent
    · obtain ⟨nodeId, hid, hnode⟩ := hstate.nodes docEntry hold ent hent
      exact ⟨nodeId, hid, hkept nodeId hnode⟩
  · rw [List.map_append, List.nodup_append] at hnodup
    obtain ⟨hold, -, hnew⟩ := hnodup
    rw [Dict.get?_set]
    rcases List.mem_append.mp hentry with hmem | hmem
    · rw [if_neg (hnew _ (List.mem_map_of_mem hmem) _ (by simp)).symm]
      exact hstate.kept hold docEntry hmem
    · obtain rfl := List.mem_singleton.mp hmem
      exact ⟨entities, if_pos rfl, hentities⟩

lemma collected_foldlM {byDoc : Dict Str (List Extraction)}
    {state : Dict Str (List GroundedEntity) × Graph}
    (h : byDoc.foldlM (collect env) ([], {}) = .ok state) : Collected env byDoc state := by
  induction byDoc using List.reverseRecOn generalizing state with
  | nil =>
    cases h
    exact ⟨⟨nofun, rfl⟩, nofun, nofun, nofun⟩
  | append_singleton byDoc entry ih =>
    rw [List.foldlM_append] at h
    obtain ⟨mid, hmid, h⟩ := Except.of_bind_eq_ok h
    rw [List.foldlM_cons] at h
    obtain ⟨state', hstep, h⟩ := Except.of_bind_eq_ok h
    cases h
    exact (ih hmid).step hstep

/-! ### The edges -/

lemma hasEntity_ensureNode {graph : Graph} {nodeId : Str} (h : HasEntity graph nodeId) (id : Str)
    (attrs : NodeAttrs) : HasEntity (graph.ensureNode id attrs) nodeId := by
  rw [Graph.ensureNode]
  cases hget : graph.nodes.get? id with
  | some _ => exact h
  | none =>
    obtain ⟨attrs', hget', hne⟩ := h
    have hdiff : id ≠ nodeId := by
      rintro rfl
      rw [hget] at hget'
      cases hget'
    exact ⟨attrs', by rw [Dict.get?_set, if_neg hdiff]; exact hget', hne⟩

lemma edges_ensureNode (graph : Graph) (id : Str) (attrs : NodeAttrs) :
    (graph.ensureNode id attrs).edges = graph.edges := by
  rw [Graph.ensureNode]
  split <;> rfl

lemma edges_link (graph : Graph) (entry : Relationship × Str) :
    (link graph entry).edges = graph.edges.set s(entry.1.source, docNode entry.2)
      ⟨entry.1.relation, entry.1.bboxes⟩ := by
  simp only [link, Graph.addEdge, edges_ensureNode]

lemma hasEntity_link {graph : Graph} {nodeId : Str} (h : HasEntity graph nodeId)
    (entry : Relationship × Str) : HasEntity (link graph entry) nodeId :=
  hasEntity_ensureNode (hasEntity_ensureNode (hasEntity_ensureNode h _ _) _ _) _ _

/-- The documents of the relationships, in the order in which they are linked. -/
def links (relationships : List Relationship) : List (Relationship × Str) :=
  relationships.flatMap fun rel => rel.docs.map (rel, ·)

lemma foldl_addRelationship (relationships : List Relationship) (graph : Graph) :
    relationships.foldl addRelationship graph = (links relationships).foldl link graph := by
  rw [links, List.foldl_flatMap]
  congr 1
  funext graph rel
  rw [addRelationship, List.foldl_map]

/-- The edges are those of the links, with a relation of one of them. -/
structure Linked (entries : List (Relationship × Str)) (graph : Graph) : Prop where
  written : ∀ entry ∈ entries, ∃ attrs,
    graph.edges.get? s(entry.1.source, docNode entry.2) = some attrs
  edge : ∀ pair attrs, graph.edges.get? pair = some attrs → ∃ entry ∈ entries,
    pair = s(entry.1.source, docNode entry.2) ∧ attrs.relation = entry.1.relation

lemma linked_foldl {graph : Graph} (hedges : graph.edges = []) (entries : List (Relationship × Str)) :
    Linked entries (entries.foldl link graph) ∧
      ∀ nodeId, HasEntity graph nodeId → HasEntity (entries.foldl link graph) nodeId := by
  induction entries using List.reverseRecOn with
  | nil =>
    refine ⟨⟨nofun, fun pair attrs h => ?_⟩, fun _ h => h⟩
    rw [List.foldl_nil, hedges] at h
    cases h
  | append_singleton entries entry ih =>
    obtain ⟨⟨hwritten, hedge⟩, hkept⟩ := ih
    rw [List.foldl_append, List.foldl_cons, List.foldl_nil]
    refine ⟨⟨fun e he => ?_, fun pair attrs h => ?_⟩, fun id h => hasEntity_link (hkept id h) entry⟩
    · rw [edges_link, Dict.get?_set]
      split_ifs with hsame
      · exact ⟨_, rfl⟩
      · rw [List.mem_append, List.mem_singleton] at he
        rcases he with he | rfl
        · exact hwritten e he
        · exact absurd rfl hsame
    · rw [edges_link, Dict.get?_set] at h
      split_ifs at h with hsame
      · cases h
        exact ⟨entry, by simp, hsame.symm, rfl⟩
      · obtain ⟨e, he, hpair⟩ := hedge pair attrs h
        exact ⟨e, List.mem_append_left _ he, hpair⟩

/-! ### What a built graph keeps -/

/-- Every relationship is on the edge to each of its documents. -/
def Kept (graph : Graph) (relationships : List Relationship) : Prop :=
  ∀ rel ∈ relationships, ∀ docId ∈ rel.docs, ∃ attrs,
    graph.edges.get? s(rel.source, docNode docId) = some attrs ∧ attrs.relation = rel.relation

/-- Every edge leads from the node of an entity to a document in which the entity is found. -/
def Grounded (env : Env) (byDoc : Dict Str (List Extraction)) (graph : Graph) : Prop :=
  ∀ pair attrs, graph.edges.get? pair = some attrs → ∃ source, ∃ entry ∈ byDoc,
    pair = s(source, docNode entry.1) ∧ HasEntity graph source ∧
    ∃ ent, Found env entry ent ∧ ent.nodeId env = .ok source

/-- Two documents have an organization or a jurisdiction in common. -/
def Shared (env : Env) (byDoc : Dict Str (List Extraction)) : Prop :=
  ∃ entityType, (entityType = .org ∨ entityType = .jurisdiction) ∧
    ∃ entry ∈ byDoc, ∃ entry' ∈ byDoc, entry.1 ≠ entry'.1 ∧
      ∃ ent ent', Found env entry ent ∧ Found env entry' ent' ∧ ent.entityType = entityType ∧
        ent'.entityType = entityType ∧
        ∃ name, ent.lowerValue env = .ok name ∧ ent'.lowerValue env = .ok name

section

variable {byDoc : Dict Str (List Extraction)} {state : Dict Str (List GroundedEntity) × Graph}

lemma Collected.found (h : Collected env byDoc state) {ent : GroundedEntity}
    (hent : ent ∈ state.1.flatMap Prod.snd) : ∃ entry ∈ byDoc, Found env entry ent := by
  obtain ⟨docEntry, hentry, hent⟩ := List.mem_flatMap.mp hent
  obtain ⟨extractions, hmem, hextract⟩ := h.entities docEntry hentry
  exact ⟨_, hmem, (mem_extractEntities hextract).mp hent⟩

lemma Collected.mem_of_found (h : Collected env byDoc state) (hnodup : (byDoc.map Prod.fst).Nodup)
    {entry : Str × List Extraction} (hentry : entry ∈ byDoc) {ent : GroundedEntity}
    (hfound : Found env entry ent) : ent ∈ state.1.flatMap Prod.snd := by
  obtain ⟨entities, hget, hextract⟩ := h.kept hnodup entry hentry
  exact List.mem_flatMap.mpr
    ⟨_, Dict.mem_of_get? hget, (mem_extractEntities hextract).mpr hfound⟩

/-- A shared entity gets a relationship of the first rule and one of the rule of its type. -/
lemma exists_two_relationships (h : Collected env byDoc state) (hnodup : (byDoc.map Prod.fst).Nodup)
    {relationships : List Relationship}
    (hinfer : inferRelationships env state.1 = .ok relationships) (hshared : Shared env byDoc) :
    ∃ rel ∈ relationships, ∃ rel' ∈ relationships, rel.source = rel'.source ∧
      rel.relation ≠ rel'.relation ∧ ∃ docId, docId ∈ rel.docs ∧ docId ∈ rel'.docs := by
  obtain ⟨t, ht, entry, hentry, entry', hentry', hne, ent, ent', hfound, hfound', rfl, htype, name,
    hname, hname'⟩ := hshared
  obtain ⟨named, hnamed, rfl⟩ := inferRelationships_eq hinfer
  have hn : (name, ent) ∈ named :=
    (mem_nameAll hnamed).mpr ⟨h.mem_of_found hnodup hentry hfound, hname⟩
  have hn' : (name, ent') ∈ named :=
    (mem_nameAll hnamed).mpr ⟨h.mem_of_found hnodup hentry' hfound', hname'⟩
  have hdoc : ent.sourceDoc ≠ ent'.sourceDoc := by
    rw [hfound.sourceDoc, hfound'.sourceDoc]
    exact hne
  have hkey : entityKey (name, ent') = entityKey (name, ent) := by
    rw [entityKey, entityKey, htype]
  obtain ⟨g, hg, rel, hrel, hkeyg, hdocg⟩ :=
    @exists_edgeOf env appearsIn id entityKey named (name, ent) (name, ent') hn hn' hkey hdoc
  have hspec := edgeOf_spec hg hrel
  have hmem : rel ∈ ruleEdges env appearsIn id entityKey named :=
    List.mem_filterMap.mpr ⟨g, hg, hrel⟩
  -- the rule of the type finds the same two entities
  have hof : (name, ent) ∈ ofType ent.entityType named ∧ (name, ent') ∈ ofType ent.entityType named :=
    ⟨List.mem_filter.mpr ⟨hn, decide_eq_true rfl⟩, List.mem_filter.mpr ⟨hn', decide_eq_true htype⟩⟩
  have hsecond : ∀ relation, relation ≠ appearsIn →
      ∃ rel' ∈ ruleEdges env relation (typed ent.entityType) Prod.fst (ofType ent.entityType named),
        rel.source = rel'.source ∧ rel.relation ≠ rel'.relation ∧
          ∃ docId, docId ∈ rel.docs ∧ docId ∈ rel'.docs := by
    intro relation hrelation
    obtain ⟨g', hg', rel', hrel', hkeyg', hdocg'⟩ := @exists_edgeOf env relation
      (typed ent.entityType) Prod.fst _ (name, ent) (name, ent') hof.1 hof.2 rfl hdoc
    have hspec' := edgeOf_spec hg' hrel'
    refine ⟨rel', List.mem_filterMap.mpr ⟨g', hg', hrel'⟩, ?_, ?_, _, hdocg, hdocg'⟩
    · rw [hspec.1, hspec'.1, hkeyg, hkeyg']
      rfl
    · rw [hspec.2.1, hspec'.2.1]
      exact hrelation.symm
  rcases ht with ht | ht
  · rw [ht] at hsecond
    obtain ⟨rel', hmem', h⟩ := hsecond suppliesTo (by decide)
    exact ⟨rel, by simp [hmem], rel', by simp [hmem'], h⟩
  · rw [ht] at hsecond
    obtain ⟨rel', hmem', h⟩ := hsecond governedBy (by decide)
    exact ⟨rel, by simp [hmem], rel', by simp [hmem'], h⟩

/-- Without a shared organization or jurisdiction only the first rule fires. -/
lemma relation_of_not_shared (h : Collected env byDoc state) {relationships : List Relationship}
    (hinfer : inferRelationships env state.1 = .ok relationships) (hshared : ¬ Shared env byDoc) :
    ∀ rel ∈ relationships, rel.relation = appearsIn := by
  obtain ⟨named, hnamed, rfl⟩ := inferRelationships_eq hinfer
  have hnone : ∀ t, (t = .org ∨ t = .jurisdiction) → ∀ relation,
      ∀ rel ∈ ruleEdges env relation (typed t) Prod.fst (ofType t named), False := by
    intro t ht relation rel hrel
    obtain ⟨k, -, -, hdocs, a, ha, b, hb, hab⟩ := mem_ruleEdges hrel
    obtain ⟨n, hn, rfl, rfl⟩ := hdocs a ha
    obtain ⟨n', hn', hname, rfl⟩ := hdocs b hb
    rw [ofType, List.mem_filter, decide_eq_true_eq] at hn hn'
    obtain ⟨hmem, hlower⟩ := (mem_nameAll hnamed).mp hn.1
    obtain ⟨hmem', hlower'⟩ := (mem_nameAll hnamed).mp hn'.1
    obtain ⟨entry, hentry, hfound⟩ := h.found hmem
    obtain ⟨entry', hentry', hfound'⟩ := h.found hmem'
    rw [hfound.sourceDoc, hfound'.sourceDoc] at hab
    exact hshared ⟨t, ht, entry, hentry, entry', hentry', hab, n.2, n'.2, hfound, hfound', hn.2, hn'.2,
      n.1, hlower, hname ▸ hlower'⟩
  intro rel hrel
  rw [List.mem_append, List.mem_append] at hrel
  rcases hrel with (hrel | hrel) | hrel
  · obtain ⟨-, -, hrelation, -⟩ := mem_ruleEdges hrel
    exact hrelation
  · exact (hnone .org (.inl rfl) _ rel hrel).elim
  · exact (hnone .jurisdiction (.inr rfl) _ rel hrel).elim

end

/-- A graph that is built from nothing keeps every relationship exactly if no two documents have an
organization or a jurisdiction in common; its edges are grounded in any case. -/
theorem build_keeps_iff {byDoc : Dict Str (List Extraction)} (hnodup : (byDoc.map Prod.fst).Nodup)
    {graph : Graph} {stats : Stats} (h : build env {} byDoc = .ok (graph, stats)) :
    ∃ entitiesByDoc populated relationships,
      byDoc.foldlM (collect env) ([], {}) = .ok (entitiesByDoc, populated) ∧
      inferRelationships env entitiesByDoc = .ok relationships ∧
      (Kept graph relationships ↔ ¬ Shared env byDoc) ∧ Grounded env byDoc graph := by
  obtain ⟨⟨entitiesByDoc, populated⟩, hcollect, h⟩ := Except.of_bind_eq_ok h
  obtain ⟨relationships, hinfer, h⟩ := Except.of_bind_eq_ok h
  cases h
  refine ⟨entitiesByDoc, populated, relationships, hcollect, hinfer, ?_⟩
  have hcollected := collected_foldlM hcollect
  simp only [foldl_addRelationship]
  obtain ⟨⟨hwritten, hedge⟩, hnodes⟩ := linked_foldl hcollected.only.edges (links relationships)
  have hlinks : ∀ rel ∈ relationships, ∀ docId ∈ rel.docs, (rel, docId) ∈ links relationships :=
    fun rel hrel docId hdoc =>
      List.mem_flatMap.mpr ⟨rel, hrel, List.mem_map.mpr ⟨docId, hdoc, rfl⟩⟩
  have hmem : ∀ entry ∈ links relationships, entry.1 ∈ relationships ∧ entry.2 ∈ entry.1.docs := by
    intro entry hentry
    obtain ⟨rel, hrel, hentry⟩ := List.mem_flatMap.mp hentry
    obtain ⟨docId, hdoc, rfl⟩ := List.mem_map.mp hentry
    exact ⟨hrel, hdoc⟩
  refine ⟨⟨fun hkept hshared => ?_, fun hshared rel hrel docId hdoc => ?_⟩, fun pair attrs hget => ?_⟩
  · obtain ⟨rel, hrel, rel', hrel', hsource, hne, docId, hdoc, hdoc'⟩ :=
      exists_two_relationships hcollected hnodup hinfer hshared
    obtain ⟨attrs, hget, hrelation⟩ := hkept rel hrel docId hdoc
    obtain ⟨attrs', hget', hrelation'⟩ := hkept rel' hrel' docId hdoc'
    rw [hsource, hget'] at hget
    cases hget
    exact hne (hrelation.symm.trans hrelation')
  · have hall := relation_of_not_shared hcollected hinfer hshared
    obtain ⟨attrs, hget⟩ := hwritten (rel, docId) (hlinks rel hrel docId hdoc)
    obtain ⟨entry, hentry, -, hrelation⟩ := hedge _ attrs hget
    refine ⟨attrs, hget, ?_⟩
    rw [hrelation, hall _ (hmem entry hentry).1, hall rel hrel]
  · obtain ⟨⟨rel, docId⟩, hentry, rfl, -⟩ := hedge pair attrs hget
    obtain ⟨hrel, hdoc⟩ := hmem _ hentry
    obtain ⟨named, hnamed, rfl⟩ := inferRelationships_eq hinfer
    obtain ⟨n, hn, hsource, rfl⟩ := exists_named_of_mem hrel hdoc
    obtain ⟨hent, hlower⟩ := (mem_nameAll hnamed).mp hn
    obtain ⟨entry, hentry, hfound⟩ := hcollected.found hent
    obtain ⟨docEntry, hin, hent⟩ := List.mem_flatMap.mp hent
    have hid : n.2.nodeId env = .ok rel.source := by
      rw [GroundedEntity.nodeId, hlower, hsource]
      rfl
    obtain ⟨nodeId, hnode, hhas⟩ := hcollected.nodes docEntry hin n.2 hent
    obtain rfl : nodeId = rel.source := Except.ok.inj (hnode.symm.trans hid)
    refine ⟨rel.source, entry, hentry, ?_, hnodes _ hhas, n.2, hfound, hid⟩
    rw [hfound.sourceDoc]

namespace Sample

/-- A Python in which no field holds a JSON text. -/
def plain : Env where
  u := asciiData
  loads _ := none
  setList := List.dedup
  setList_perm _ := .refl _

lemma unit_ordered : (PyFloat.fin 1).lt (.fin 0) = false := by decide

/-- An organization, and where it stands in its document. -/
def vendor (value : String) : Extraction where
  extId := "1".toList
  fieldName := "vendor_name".toList
  value := value.toList
  method := .exact
  anchors := [{ page := 2, bbox := some ⟨.fin 0, .fin 0, .fin 1, .fin 1, unit_ordered, unit_ordered⟩ }]

/-- Two invoices of one vendor. -/
def byDoc : Dict Str (List Extraction) :=
  [("a".toList, [vendor "Acme"]), ("b".toList, [vendor "ACME"])]

end Sample

theorem build_keeps_iff_sample : ∃ graph stats, build Sample.plain {} Sample.byDoc = .ok (graph, stats) ∧
    ∃ entitiesByDoc populated relationships,
      Sample.byDoc.foldlM (collect Sample.plain) ([], {}) = .ok (entitiesByDoc, populated) ∧
      inferRelationships Sample.plain entitiesByDoc = .ok relationships ∧
      (Kept graph relationships ↔ ¬ Shared Sample.plain Sample.byDoc) ∧
      Grounded Sample.plain Sample.byDoc graph :=
  ⟨_, _, rfl, build_keeps_iff (by decide) rfl⟩

/-- Of the two relationships of a vendor only the second one is kept. -/
theorem supplier_overwrites : ∃ graph stats entitiesByDoc populated relationships,
    build Sample.plain {} Sample.byDoc = .ok (graph, stats) ∧
      Sample.byDoc.foldlM (collect Sample.plain) ([], {}) = .ok (entitiesByDoc, populated) ∧
      inferRelationships Sample.plain entitiesByDoc = .ok relationships ∧
      (relationships.map fun rel => (rel.source, rel.relation, rel.docs)) =
        [("ORG:acme".toList, appearsIn, ["a".toList, "b".toList]),
          ("ORG:acme".toList, suppliesTo, ["a".toList, "b".toList])] ∧
      (graph.edges.map fun edge => (edge.1, edge.2.relation)) =
        [(s("ORG:acme".toList, "DOC:a".toList), suppliesTo),
          (s("ORG:acme".toList, "DOC:b".toList), suppliesTo)] ∧
      ¬ Kept graph relationships := by
  refine ⟨_, _, _, _, _, rfl, rfl, rfl, rfl, rfl, fun h => ?_⟩
  obtain ⟨attrs, hget, hrelation⟩ := h _ List.mem_cons_self "a".toList List.mem_cons_self
  cases hget
  exact absurd hrelation (by decide)

end AxiomGrid.Kairo.KnowledgeGraph

import AxiomGrid.Lib.Collect
import AxiomGrid.Lib.GroupBy
import AxiomGrid.Lib.Json
import AxiomGrid.Lib.Regex
import AxiomGrid.Pipeline.DataModel
import Mathlib.Data.Char
import Mathlib.Data.List.Dedup
import Mathlib.Data.List.Lex
import Mathlib.Data.List.Sort
import Mathlib.Data.Sym.Sym2

/-!
# The knowledge graph

`extract_entities`, `infer_relationships` and `GroundedKnowledgeGraph.build_from_extractions` of
`kairo/graph`. An entity that occurs in two documents is linked to both, by as many relationships as
there are rules for its type. An undirected graph has one map of attributes for two nodes, so that the
last of these relationships is the one that is kept.
-/

namespace AxiomGrid.Kairo.KnowledgeGraph

open Pipeline

/-! ### Entities -/

inductive EntityType where
  | person
  | org
  | date
  | amount
  | jurisdiction
  deriving DecidableEq

def EntityType.name : EntityType → Str
  | person => "PERSON".toList
  | org => "ORG".toList
  | date => "DATE".toList
  | amount => "AMOUNT".toList
  | jurisdiction => "JURISDICTION".toList

/-- An entity of a grounded field. The value is what the field holds, which need not be a text. -/
structure GroundedEntity where
  entityType : EntityType
  value : Json
  sourceDoc : Str
  sourceBbox : Option (List PyFloat)
  sourcePage : ℕ
  confidence : PyFloat
  sourceField : Str

/-- The parts of Python that the graph rests on. -/
structure Env where
  u : UnicodeData
  /-- `json.loads`; `none` is the `JSONDecodeError`. -/
  loads : Str → Option Json
  /-- `list(set(xs))`, in some order. -/
  setList : List Str → List Str
  setList_perm : ∀ xs, (setList xs).Perm xs.dedup

/-- What a loop over a value runs through; `none` is the `TypeError`. -/
def iterate : Json → Option (List Json)
  | .arr xs => some xs
  | .obj kvs => some (kvs.map fun kv => .str kv.1)
  | .str s => some (s.toList.map fun c => .str (String.singleton c))
  | _ => none

/-- The legal forms at the end of a name. -/
def legalSuffix : Regex.Pattern :=
  let word (s : String) : Regex.Pattern := .concat (s.toList.map fun c => .char (· == c))
  .concat [.many1 true Str.isSpace,
    .oneOf (["LLP", "LP", "Inc", "Ltd", "Pty", "Corp", "Corporation", "LLC"].map word),
    .opt (.char (· == '.'))]

def cleanParty (party : Str) : Str := Str.strip (Regex.remove legalSuffix party)

variable (env : Env)

/-- The items of a JSON text; none if it is not one or cannot be looped over. -/
def items (value : Str) : List Json := ((env.loads value).bind iterate).getD []

/-- The parties of a contract. A party that is not a text ends the loop. -/
def parties (value : Str) : List Json :=
  ((items env value).takeWhile (·.str?.isSome)).filter fun party =>
    party.str?.any fun s => cleanParty s.toList ≠ []

/-- The entities of a field, by its name. -/
def mentions (ext : Extraction) : List (EntityType × Json) :=
  let value : Json := .str (String.ofList ext.value)
  if ext.fieldName = "parties".toList then (parties env ext.value).map (.org, ·)
  else if ext.fieldName = "vendor_name".toList then [(.org, value)]
  else if ext.fieldName ∈
      ["effective_date", "termination_date", "due_date", "invoice_date"].map String.toList then
    [(.date, value)]
  else if ext.fieldName ∈ ["total_amount", "tax_amount"].map String.toList then [(.amount, value)]
  else if ext.fieldName = "governing_law".toList then [(.jurisdiction, value)]
  else if ext.fieldName = "authors".toList then (items env ext.value).map (.person, ·)
  else []

/-- The box and the page of the first anchor. -/
def provenance (ext : Extraction) : Except String (Option (List PyFloat) × ℕ) :=
  match ext.anchors with
  | [] => .ok (none, 1)
  | a :: _ =>
    match a.bbox with
    | none => .error "'NoneType' object has no attribute 'x0'"
    | some b => .ok (some [b.x0, b.y0, b.x1.sub b.x0, b.y1.sub b.y0], a.page)

/-- The body of the loop over the extractions. -/
def entitiesOf (docId : Str) (ext : Extraction) : Except String (List GroundedEntity) :=
  if ext.method = .block then .ok []
  else
    (provenance ext).map fun place =>
      (mentions env ext).map fun mention =>
        { entityType := mention.1
          value := mention.2
          sourceDoc := docId
          sourceBbox := place.1
          sourcePage := place.2
          confidence := ext.confidence
          sourceField := ext.fieldName }

/-- `extract_entities`. -/
def extractEntities (extractions : List Extraction) (docId : Str) :
    Except String (List GroundedEntity) :=
  (extractions.mapM (entitiesOf env docId)).map List.flatten

/-! ### Nodes -/

/-- `value.lower()`. -/
def GroundedEntity.lowerValue (ent : GroundedEntity) : Except String Str :=
  match ent.value.str? with
  | some s => .ok (Str.lower env.u s.toList)
  | none => .error "object has no attribute 'lower'"

/-- `f"{entity_type}:{value}"`. -/
def typed (entityType : EntityType) (value : Str) : Str := entityType.name ++ ':' :: value

/-- The id of the node of an entity. -/
def GroundedEntity.nodeId (ent : GroundedEntity) : Except String Str :=
  (ent.lowerValue env).map (typed ent.entityType)

/-- `f"DOC:{doc_id}"`. -/
def docNode (docId : Str) : Str := "DOC:".toList ++ docId

/-- The attributes of a node: those of an entity, those of a document, and the list of sources. -/
structure NodeAttrs where
  entity : Option GroundedEntity := none
  document : Option Str := none
  sourceDocs : Option (List Str) := none

structure EdgeAttrs where
  relation : Str
  bboxes : List (List PyFloat)

/-- `nx.Graph`: the attributes of each node, and of each pair of nodes with an edge. -/
structure Graph where
  nodes : Dict Str NodeAttrs := []
  edges : Dict (Sym2 Str) EdgeAttrs := []

namespace Graph

/-- `add_entity`. -/
def addEntity (graph : Graph) (ent : GroundedEntity) : Except String Graph :=
  (ent.nodeId env).map fun nodeId =>
    match graph.nodes.get? nodeId with
    | none => { graph with nodes := graph.nodes.set nodeId { entity := some ent } }
    | some existing =>
      let sourceDocs := existing.sourceDocs.getD [(existing.entity.map (·.sourceDoc)).getD []]
      { graph with
        nodes := graph.nodes.set nodeId
          { existing with
            sourceDocs := some (if ent.sourceDoc ∈ sourceDocs then sourceDocs
              else sourceDocs ++ [ent.sourceDoc]) } }

/-- A node that is not there yet. -/
def ensureNode (graph : Graph) (nodeId : Str) (attrs : NodeAttrs) : Graph :=
  match graph.nodes.get? nodeId with
  | none => { graph with nodes := graph.nodes.set nodeId attrs }
  | some _ => graph

/-- `add_edge`: both nodes are there afterwards, and the attributes replace those of an earlier edge. -/
def addEdge (graph : Graph) (source target : Str) (attrs : EdgeAttrs) : Graph :=
  let graph := (graph.ensureNode source {}).ensureNode target {}
  { graph with edges := graph.edges.set s(source, target) attrs }

end Graph

/-! ### Relationships -/

structure Relationship where
  source : Str
  relation : Str
  docs : List Str
  bboxes : List (List PyFloat)
  entityType : EntityType
  value : Json

/-- An entity with the lower case of its value. -/
abbrev Named := Str × GroundedEntity

/-- The relationship of the entities of a group, if they are from more than one document. -/
def edgeOf (relation : Str) (source : Str → Str) (entry : Str × List Named) : Option Relationship :=
  match entry.2.map Prod.snd with
  | first :: second :: more =>
    let ents := first :: second :: more
    let docIds := env.setList (ents.map (·.sourceDoc))
    if 1 < docIds.length then
      some
        { source := source entry.1
          relation
          docs := docIds
          bboxes := ents.filterMap (·.sourceBbox)
          entityType := first.entityType
          value := first.value }
    else none
  | _ => none

/-- `",".join(sorted(doc_ids))`. -/
def joinSorted (docIds : List Str) : Str :=
  List.intercalate [','] (docIds.insertionSort (· ≤ ·))

/-- The edges and `seen_edges`. -/
abbrev Inferred := List Relationship × List (Str × Str × Str)

/-- One group of a rule. -/
def inferStep (relation : Str) (source : Str → Str) (acc : Inferred) (entry : Str × List Named) :
    Inferred :=
  match edgeOf env relation source entry with
  | none => acc
  | some edge =>
    let edgeKey := (entry.1, relation, joinSorted edge.docs)
    if edgeKey ∈ acc.2 then acc else (acc.1 ++ [edge], acc.2 ++ [edgeKey])

/-- A rule over the groups of the entities with the same key. -/
def rule (relation : Str) (source : Str → Str) (key : Named → Str) (named : List Named)
    (acc : Inferred) : Inferred :=
  (Dict.group key named).foldl (inferStep env relation source) acc

def appearsIn : Str := "appears_in".toList
def suppliesTo : Str := "supplies_to".toList
def governedBy : Str := "governed_by".toList

/-- Rule 1: the same entity in several documents. -/
def appearsInRule (named : List Named) : Inferred → Inferred :=
  rule env appearsIn id (fun n => typed n.2.entityType n.1) named

/-- Rule 2: the same organization in several documents. -/
def suppliesToRule (named : List Named) : Inferred → Inferred :=
  rule env suppliesTo (typed .org) Prod.fst (named.filter fun n => n.2.entityType = .org)

/-- Rule 3: the same jurisdiction in several documents. -/
def governedByRule (named : List Named) : Inferred → Inferred :=
  rule env governedBy (typed .jurisdiction) Prod.fst
    (named.filter fun n => n.2.entityType = .jurisdiction)

/-- The entities with the lower case of their values. -/
def nameAll (entities : List GroundedEntity) : Except String (List Named) :=
  entities.mapM fun ent => (ent.lowerValue env).map fun name => (name, ent)

/-- `infer_relationships`. -/
def inferRelationships (entitiesByDoc : Dict Str (List GroundedEntity)) :
    Except String (List Relationship) :=
  (nameAll env (entitiesByDoc.flatMap Prod.snd)).map fun named =>
    (governedByRule env named (suppliesToRule env named (appearsInRule env named ([], [])))).1

/-! ### Building -/

/-- One document: its entities, and their nodes. -/
def collect (state : Dict Str (List GroundedEntity) × Graph) (entry : Str × List Extraction) :
    Except String (Dict Str (List GroundedEntity) × Graph) := do
  let entities ← extractEntities env entry.2 entry.1
  let graph ← entities.foldlM (Graph.addEntity env) state.2
  return (state.1.set entry.1 entities, graph)

/-- One document of a relationship. -/
def link (graph : Graph) (entry : Relationship × Str) : Graph :=
  (graph.ensureNode (docNode entry.2) { document := some entry.2 }).addEdge entry.1.source
    (docNode entry.2) ⟨entry.1.relation, entry.1.bboxes⟩

/-- The documents of a relationship. -/
def addRelationship (graph : Graph) (rel : Relationship) : Graph :=
  rel.docs.foldl (fun graph docId => link graph (rel, docId)) graph

structure Stats where
  nodesAdded : ℤ
  edgesAdded : ℤ
  totalNodes : ℕ
  totalEdges : ℕ

/-- `build_from_extractions`. -/
def build (graph : Graph) (extractionsByDoc : Dict Str (List Extraction)) :
    Except String (Graph × Stats) := do
  let collected ← extractionsByDoc.foldlM (collect env) ([], graph)
  let relationships ← inferRelationships env collected.1
  let linked := relationships.foldl addRelationship collected.2
  return (linked,
    { nodesAdded := linked.nodes.length - graph.nodes.length
      edgesAdded := linked.edges.length - graph.edges.length
      totalNodes := linked.nodes.length
      totalEdges := linked.edges.length })

end AxiomGrid.Kairo.KnowledgeGraph

import Inventory.Graph.Basic
import Inventory.Snapshot.Document

/-! # Loading a snapshot

Each resource, type of resources and metric of a document becomes a record under its own id, in document order.
A resource keeps its direct children and metrics, and the nearest resource above it as its parent. A metric
takes unit and interval from the metric type of the document that it names.
-/

namespace Inventory

structure LoadStats where
  resources : Nat
  resourceTypes : Nat
  metrics : Nat
deriving DecidableEq, Repr

def Entity.measure? : Entity → Option (String × MetricUnit × UInt64)
  | .metricType id _ _ unit interval _ => some (id, unit, interval)
  | _ => none

abbrev Measures := Std.TreeMap String (MetricUnit × UInt64)

namespace Measures

/-- The table of the metric types among some entities; the last one with an id counts. -/
def ofEntities (entities : List Entity) : Measures :=
  entities.foldl (fun measures entity =>
    match entity.measure? with
    | some (id, measure) => measures.insert id measure
    | none => measures) ∅

def ofType (measures : Measures) (typeId : String) : MetricUnit × UInt64 :=
  measures.getD typeId (.none, 0)

theorem getElem?_ofEntities (entities : List Entity) (typeId : String) :
    (ofEntities entities)[typeId]? = (entities.filterMap (·.measure?)).reverse.lookup typeId := by
  rw [ofEntities, List.foldl_eq_foldr_reverse, ← List.filterMap_reverse]
  induction entities.reverse with
  | nil => simp
  | cons entity rest ih =>
    rw [List.foldr_cons]
    cases h : entity.measure? with
    | none => rw [List.filterMap_cons_none h]; exact ih
    | some measure =>
      rw [List.filterMap_cons_some h, List.lookup_cons]
      by_cases heq : measure.1 = typeId
      · simp [heq]
      · rw [beq_false_of_ne (Ne.symm heq), ← ih]
        simp [Std.TreeMap.getElem?_insert, heq]

end Measures

namespace Structure

def childIds (s : Structure) (kind : EntityKind) : List String :=
  (s.children.filter (·.entity.kind == kind)).map (·.entity.id)

mutual

/-- The nodes in document order, each with the id of the nearest resource above it. -/
def nodesUnder (owner : Option String) : Structure → List (Option String × Structure)
  | .node entity children =>
    (owner, .node entity children) ::
      nodesBelow (if entity.kind = .resource then some entity.id else owner) children

def nodesBelow (owner : Option String) : List Structure → List (Option String × Structure)
  | [] => []
  | s :: rest => nodesUnder owner s ++ nodesBelow owner rest

end

end Structure

inductive GraphRecord where
  | resource (r : Resource)
  | resourceType (t : ResourceType)
  | metric (m : Metric)

namespace GraphRecord

def ofNode? (measures : Measures) (owner : Option String) (s : Structure) : Option GraphRecord :=
  match s.entity with
  | .resource id name _ properties =>
    let r := (Resource.plain id name (s.entity.typeId?.getD "")).withParent (owner.getD "")
    some (.resource
      { r with childIds := s.childIds .resource, metricIds := s.childIds .metric, properties })
  | .resourceType id _ operations properties => some (.resourceType ⟨id, operations, properties⟩)
  | .metric id name _ properties =>
    let typeId := s.entity.typeId?.getD ""
    let (unit, interval) := measures.ofType typeId
    some (.metric ⟨id, typeId, name, unit, interval, properties⟩)
  | .metricType .. => none

end GraphRecord

def Document.graphRecords (doc : Document) : List GraphRecord :=
  let measures := Measures.ofEntities doc.tree.entities
  (doc.tree.nodesUnder none).filterMap fun (owner, s) => GraphRecord.ofNode? measures owner s

namespace LoadStats

def ofRecords (records : List GraphRecord) : LoadStats where
  resources := records.countP fun | .resource _ => true | _ => false
  resourceTypes := records.countP fun | .resourceType _ => true | _ => false
  metrics := records.countP fun | .metric _ => true | _ => false

end LoadStats

namespace Graph

def addRecord (g : Graph) : GraphRecord → Graph
  | .resource r => g.addResource r
  | .resourceType t => g.addResourceType t
  | .metric m => g.addMetric m

/-- The graph with the records of a document; the index stays as it was. -/
def load (g : Graph) (doc : Document) : Graph × LoadStats :=
  (doc.graphRecords.foldl addRecord g, .ofRecords doc.graphRecords)

end Graph

end Inventory

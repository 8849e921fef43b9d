import Inventory.Proofs.Graph.Replay
import Inventory.Proofs.Snapshot.Lineage

/-! # What loading a document does to the stores

The nodes of one kind become records of one kind, in document order (`Document.filterMap_graphRecords`), and a
store takes them in one after the other: the last record under an id counts, while the id stays where it came
first (`Store.takes_foldl_put`). A second load of the same document therefore finds all as it leaves it.
-/

namespace Inventory

namespace Entity

def properties : Entity → Properties
  | .resourceType _ _ _ properties => properties
  | .metricType _ _ _ _ _ properties => properties
  | .resource _ _ _ properties => properties
  | .metric _ _ _ properties => properties

def operations : Entity → List Operation
  | .resourceType _ _ operations _ => operations
  | _ => []

end Entity

namespace Structure

def owner? (above : List Structure) : Option String :=
  (nearest? above).map (·.entity.id)

def toResource (owner : Option String) (s : Structure) : Resource :=
  { (Resource.plain s.entity.id s.entity.name (s.entity.typeId?.getD "")).withParent (owner.getD "") with
    childIds := s.childIds .resource
    metricIds := s.childIds .metric
    properties := s.entity.properties }

def toResourceType (s : Structure) : ResourceType :=
  ⟨s.entity.id, s.entity.operations, s.entity.properties⟩

def toMetric (measureOf : String → MetricUnit × UInt64) (s : Structure) : Metric where
  id := s.entity.id
  name := s.entity.typeId?.getD ""
  displayName := s.entity.name
  unit := (measureOf (s.entity.typeId?.getD "")).1
  collectionInterval := (measureOf (s.entity.typeId?.getD "")).2
  properties := s.entity.properties

/-- The nodes of a kind in document order, each with the nodes above it. -/
def rowsOf (kind : EntityKind) (s : Structure) : List (List Structure × Structure) :=
  s.lineage.filter (·.2.entity.kind == kind)

def idsOf (kind : EntityKind) (s : Structure) : List String :=
  (s.rowsOf kind).map (·.2.entity.id)

theorem length_rowsOf (kind : EntityKind) (s : Structure) :
    (s.rowsOf kind).length = s.nodes.countP (·.entity.kind == kind) := by
  rw [rowsOf, ← List.countP_eq_length_filter, nodes, List.countP_map]
  rfl

theorem nodesBelow_eq (owner : Option String) (children : List Structure) :
    nodesBelow owner children = children.flatMap (nodesUnder owner) := by
  induction children with
  | nil => rfl
  | cons c rest ih => rw [nodesBelow, ih, List.flatMap_cons]

theorem owner?_cons (s : Structure) (above : List Structure) :
    owner? (s :: above) = if s.entity.kind = .resource then some s.entity.id else owner? above := by
  rw [owner?, nearest?, List.find?_cons]
  by_cases h : s.entity.kind = .resource
  · rw [if_pos h, isResource, beq_iff_eq.2 h]
    rfl
  · rw [if_neg h, isResource, beq_false_of_ne h]
    rfl

theorem nodesUnder_eq (above : List Structure) (s : Structure) :
    s.nodesUnder (owner? above) = (s.lineageUnder above).map fun p => (owner? p.1, p.2) := by
  induction s using Structure.induct generalizing above with
  | node entity children ih =>
    rw [nodesUnder, nodesBelow_eq, lineageUnder_eq, List.map_cons, List.map_flatMap]
    refine congrArg _ (List.flatMap_congr ?_)
    intro c hc
    rw [← ih c hc, owner?_cons]
    rfl

end Structure

namespace Document

open Structure

variable (doc : Document)

def measureOf (typeId : String) : MetricUnit × UInt64 :=
  ((doc.tree.entities.filterMap (·.measure?)).reverse.lookup typeId).getD (.none, 0)

def resourceRecords : List Resource :=
  (doc.tree.rowsOf .resource).map fun row => row.2.toResource (owner? row.1)

def resourceTypeRecords : List ResourceType :=
  (doc.tree.rowsOf .resourceType).map fun row => row.2.toResourceType

def metricRecords : List Metric :=
  (doc.tree.rowsOf .metric).map fun row => row.2.toMetric doc.measureOf

theorem map_id_resourceRecords : doc.resourceRecords.map HasId.id = doc.tree.idsOf .resource :=
  List.map_map

theorem map_id_resourceTypeRecords : doc.resourceTypeRecords.map HasId.id = doc.tree.idsOf .resourceType :=
  List.map_map

theorem map_id_metricRecords : doc.metricRecords.map HasId.id = doc.tree.idsOf .metric :=
  List.map_map

theorem ofType_ofEntities : (Measures.ofEntities doc.tree.entities).ofType = doc.measureOf := by
  funext typeId
  rw [Measures.ofType, Std.TreeMap.getD_eq_getD_getElem?, Measures.getElem?_ofEntities, measureOf]

/-- The nodes of a kind give the records of a kind, in document order. -/
theorem filterMap_graphRecords {α : Type} {kind? : GraphRecord → Option α} {kind : EntityKind}
    {make : List Structure × Structure → α}
    (h : ∀ row : List Structure × Structure,
      (GraphRecord.ofNode? (.ofEntities doc.tree.entities) (owner? row.1) row.2).bind kind? =
        if row.2.entity.kind == kind then some (make row) else none) :
    doc.graphRecords.filterMap kind? = (doc.tree.rowsOf kind).map make := by
  have hnodes : doc.tree.nodesUnder none = doc.tree.lineage.map fun p => (owner? p.1, p.2) :=
    nodesUnder_eq [] doc.tree
  rw [graphRecords, hnodes, List.filterMap_filterMap, List.filterMap_map, rowsOf, ← List.filterMap_eq_map,
    List.filterMap_filter]
  exact List.filterMap_congr fun row _ => h row

theorem resourceRecords_eq :
    doc.resourceRecords = (doc.tree.lineage.filter (·.2.isResource)).map fun p => p.2.toResource (owner? p.1) :=
  rfl

theorem resource?_graphRecords : doc.graphRecords.filterMap GraphRecord.resource? = doc.resourceRecords := by
  apply filterMap_graphRecords
  rintro ⟨above, entity, children⟩
  cases entity <;> rfl

theorem resourceType?_graphRecords :
    doc.graphRecords.filterMap GraphRecord.resourceType? = doc.resourceTypeRecords := by
  apply filterMap_graphRecords
  rintro ⟨above, entity, children⟩
  cases entity <;> rfl

theorem metric?_graphRecords : doc.graphRecords.filterMap GraphRecord.metric? = doc.metricRecords := by
  apply filterMap_graphRecords
  rintro ⟨above, entity, children⟩
  rw [← ofType_ofEntities]
  cases entity <;> rfl

end Document

theorem LoadStats.ofRecords_eq (records : List GraphRecord) :
    ofRecords records =
      { resources := (records.filterMap GraphRecord.resource?).length
        resourceTypes := (records.filterMap GraphRecord.resourceType?).length
        metrics := (records.filterMap GraphRecord.metric?).length } := by
  rw [ofRecords, List.length_filterMap_eq_countP, List.length_filterMap_eq_countP,
    List.length_filterMap_eq_countP]
  congr 2 <;> (funext record; cases record <;> rfl)

/-- Each record is of one kind. -/
theorem length_kinds (records : List GraphRecord) :
    records.length = (records.filterMap GraphRecord.resource?).length +
      (records.filterMap GraphRecord.resourceType?).length + (records.filterMap GraphRecord.metric?).length := by
  induction records with
  | nil => rfl
  | cons record rest ih =>
    rw [List.length_cons, ih]
    cases record <;>
      simp only [List.filterMap_cons, GraphRecord.resource?, GraphRecord.resourceType?, GraphRecord.metric?,
        List.length_cons] <;>
      omega

namespace Store

variable {α : Type} [HasId α]

/-- What a row of records makes of a store when it is put into it. -/
structure Takes (s after : Store α) (records : List α) : Prop where
  last : ∀ before record behind, records = before ++ record :: behind →
    (∀ other ∈ behind, HasId.id other ≠ HasId.id record) → after.get? (HasId.id record) = some record
  other : ∀ id, id ∉ records.map HasId.id → after.get? id = s.get? id
  ids : after.ids = s.ids ++ ((records.map HasId.id).filter (· ∉ s.ids)).eraseDups

structure SameContents (s t : Store α) : Prop where
  get?_eq : ∀ id, s.get? id = t.get? id
  ids_eq : s.ids = t.ids

theorem lastUnder_of_last {before behind : List α} {record : α}
    (h : ∀ other ∈ behind, HasId.id other ≠ HasId.id record) :
    lastUnder (before ++ record :: behind) (HasId.id record) = some record := by
  have hbehind : behind.reverse.find? (fun r => HasId.id r == HasId.id record) = none := by
    refine List.find?_eq_none.2 fun other hother => ?_
    simpa using h other (List.mem_reverse.1 hother)
  rw [lastUnder, List.reverse_append, List.reverse_cons, List.append_assoc, List.find?_append, hbehind,
    Option.none_or, List.singleton_append, List.find?_cons, beq_self_eq_true]

theorem takes_foldl_put (s : Store α) (records : List α) : s.Takes (records.foldl put s) records where
  last before record behind hrecords hbehind := by
    rw [get?_foldl_put, hrecords, lastUnder_of_last hbehind]
    rfl
  other id hid := by
    rw [get?_foldl_put, lastUnder_eq_none_iff.2 hid]
    rfl
  ids := s.ids_foldl_put records

/-- The same records once more change nothing. -/
theorem sameContents_again (s : Store α) (records : List α) :
    SameContents (records.foldl put (records.foldl put s)) (records.foldl put s) where
  get?_eq id := by
    rw [get?_foldl_put, get?_foldl_put]
    cases lastUnder records id <;> rfl
  ids_eq := by
    have hold : (records.map HasId.id).filter (· ∉ (records.foldl put s).ids) = [] := by
      refine List.filter_eq_nil_iff.2 fun id hid => ?_
      have hmem : id ∈ (records.foldl put s).ids := by
        rw [ids_foldl_put, List.mem_append, List.mem_eraseDups, List.mem_filter, decide_eq_true_eq]
        by_cases hold : id ∈ s.ids
        · exact .inl hold
        · exact .inr ⟨hid, hold⟩
      simpa using hmem
    rw [ids_foldl_put, hold, List.eraseDups_nil, List.append_nil]

end Store

namespace Graph

theorem resources_load (g : Graph) (doc : Document) :
    (g.load doc).1.resources = doc.resourceRecords.foldl .put g.resources := by
  rw [← doc.resource?_graphRecords]
  exact g.resources_foldl_addRecord _

theorem resourceTypes_load (g : Graph) (doc : Document) :
    (g.load doc).1.resourceTypes = doc.resourceTypeRecords.foldl .put g.resourceTypes := by
  rw [← doc.resourceType?_graphRecords]
  exact g.resourceTypes_foldl_addRecord _

theorem metrics_load (g : Graph) (doc : Document) :
    (g.load doc).1.metrics = doc.metricRecords.foldl .put g.metrics := by
  rw [← doc.metric?_graphRecords]
  exact g.metrics_foldl_addRecord _

theorem stats_load (g : Graph) (doc : Document) :
    (g.load doc).2 =
      { resources := doc.tree.nodes.countP (·.entity.kind == .resource)
        resourceTypes := doc.tree.nodes.countP (·.entity.kind == .resourceType)
        metrics := doc.tree.nodes.countP (·.entity.kind == .metric) } := by
  rw [load, LoadStats.ofRecords_eq, doc.resource?_graphRecords, doc.resourceType?_graphRecords,
    doc.metric?_graphRecords, Document.resourceRecords, Document.resourceTypeRecords, Document.metricRecords,
    List.length_map, List.length_map, List.length_map, Structure.length_rowsOf, Structure.length_rowsOf,
    Structure.length_rowsOf]

/-- Loading a document leaves under each id of it the record of the last node with that id, and all other records
as they are. New ids come behind the old ones, in document order. The index does not change, and loading the same
document again changes no record and no order. -/
theorem load_effect (g : Graph) (doc : Document) :
    g.resources.Takes (g.load doc).1.resources doc.resourceRecords ∧
    g.resourceTypes.Takes (g.load doc).1.resourceTypes doc.resourceTypeRecords ∧
    g.metrics.Takes (g.load doc).1.metrics doc.metricRecords ∧
    (g.load doc).1.index = g.index ∧
    (g.load doc).2 =
      { resources := doc.tree.nodes.countP (·.entity.kind == .resource)
        resourceTypes := doc.tree.nodes.countP (·.entity.kind == .resourceType)
        metrics := doc.tree.nodes.countP (·.entity.kind == .metric) } ∧
    (g.load doc).1.pendingWrites = g.pendingWrites +
      ((g.load doc).2.resources + (g.load doc).2.resourceTypes + (g.load doc).2.metrics) ∧
    ((g.load doc).1.load doc).1.resources.SameContents (g.load doc).1.resources ∧
    ((g.load doc).1.load doc).1.resourceTypes.SameContents (g.load doc).1.resourceTypes ∧
    ((g.load doc).1.load doc).1.metrics.SameContents (g.load doc).1.metrics ∧
    ((g.load doc).1.load doc).2 = (g.load doc).2 := by
  refine ⟨?_, ?_, ?_, g.index_foldl_addRecord _, g.stats_load doc, ?_, ?_, ?_, ?_, rfl⟩
  · rw [resources_load]
    exact g.resources.takes_foldl_put _
  · rw [resourceTypes_load]
    exact g.resourceTypes.takes_foldl_put _
  · rw [metrics_load]
    exact g.metrics.takes_foldl_put _
  · rw [load, pendingWrites_foldl_addRecord, LoadStats.ofRecords_eq, length_kinds]
  · rw [resources_load, resources_load]
    exact g.resources.sameContents_again _
  · rw [resourceTypes_load, resourceTypes_load]
    exact g.resourceTypes.sameContents_again _
  · rw [metrics_load, metrics_load]
    exact g.metrics.sameContents_again _

/-- A site where two nodes are the same pump, the second one with a metric. -/
def site : Document :=
  .bare (.node (.resource "site" "Site" none .empty)
    [.node (.resource "pump" "Old" none .empty) [],
     .node (.resource "pump" "New" none .empty) [.node (.metric "flow" "Flow" "/mt;litres" .empty) []],
     .node (.metricType "litres" "" .gauge .perMinute 30 .empty) []])

theorem load_effect_site :
    let g := empty.addResources [Resource.plain "tank" "" "", Resource.plain "pump" "" ""]
    (g.load site).1.resource? "pump" =
      some { (Resource.plain "pump" "New" "").withParent "site" with metricIds := ["flow"] } ∧
    (g.load site).1.resource? "tank" = some (Resource.plain "tank" "" "") ∧
    (g.load site).1.resources.ids = ["tank", "pump", "site"] ∧
    (g.load site).1.metric? "flow" = some ⟨"flow", "litres", "Flow", .perMinute, 30, .empty⟩ ∧
    (g.load site).1.pendingWrites = 4 ∧ ((g.load site).1.load site).2 = ⟨3, 0, 1⟩ := by
  intro g
  obtain ⟨hresources, -, hmetrics, -, hstats, hpending, -, -, -, hagain⟩ := load_effect g site
  have hpumps : site.resourceRecords = site.resourceRecords.take 2 ++
      { (Resource.plain "pump" "New" "").withParent "site" with metricIds := ["flow"] } :: [] := by decide +kernel
  have hflow : site.metricRecords = [] ++ ⟨"flow", "litres", "Flow", .perMinute, 30, .empty⟩ :: [] := by
    decide +kernel
  have hcounts : (g.load site).2 = ⟨3, 0, 1⟩ := hstats.trans (by decide +kernel)
  refine ⟨hresources.last _ _ _ hpumps (List.forall_mem_nil _), ?_, ?_,
    hmetrics.last _ _ _ hflow (List.forall_mem_nil _), ?_, hagain.trans hcounts⟩
  · have htank := hresources.other "tank" (by decide +kernel)
    exact htank.trans (by decide +kernel)
  · exact hresources.ids.trans (by decide +kernel)
  · rw [hpending, hcounts]
    rfl

end Graph

end Inventory

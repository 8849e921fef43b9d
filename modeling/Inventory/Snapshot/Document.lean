import Inventory.Snapshot.Structure

/-! # Snapshot documents

A document is a structure with two indices: the paths of the resources and of the metrics of each type.
`Document.ofStructure` makes the indices from the structure. A document from elsewhere may have any
indices; paths in them that lead nowhere are passed over (`resourcesOfType`) and listed
(`danglingPaths`).
-/

namespace Inventory

/-- The paths of the entities of a type, by the id of the type. -/
abbrev TypeIndex := SortedMap (List String)

/-- The index with one more path of a type, unless it has it. -/
def TypeIndex.add (index : TypeIndex) (typeId path : String) : TypeIndex :=
  index.alter typeId fun paths =>
    let paths := paths.getD []
    if path ∈ paths then paths else paths ++ [path]

structure Document where
  tree : Structure
  resourceTypes : TypeIndex
  metricTypes : TypeIndex
deriving DecidableEq

namespace Document

def bare (tree : Structure) : Document :=
  ⟨tree, .empty, .empty⟩

def indexOf (kind : EntityKind) (tree : Structure) : TypeIndex :=
  tree.located.foldl (fun index (path, entity) =>
    match entity.typeId? with
    | some typeId => if entity.kind = kind then index.add typeId path else index
    | none => index) .empty

def ofStructure (tree : Structure) : Document :=
  ⟨tree, indexOf .resource tree, indexOf .metric tree⟩

def root (doc : Document) : Entity :=
  doc.tree.entity

def get? (doc : Document) (path : String) : Option Entity :=
  (doc.tree.resolve? path).map (·.entity)

def metricTypeEntities (doc : Document) : List Entity :=
  doc.tree.entities.filter (·.kind == .metricType)

def getOfKind? (doc : Document) (kind : EntityKind) (path : String) : Option Entity :=
  (doc.get? path).filter (·.kind == kind)

/-- The paths in the indices that lead to no entity of the right kind. -/
def danglingPaths (doc : Document) : List String :=
  doc.resourceTypes.values.flatten.filter (fun p => (doc.getOfKind? .resource p).isNone) ++
    doc.metricTypes.values.flatten.filter (fun p => (doc.getOfKind? .metric p).isNone)

def resourcesOfType (doc : Document) (typeId : String) : List Entity :=
  ((doc.resourceTypes.get? typeId).getD []).filterMap (doc.getOfKind? .resource)

def metricsOfType (doc : Document) (typeId : String) : List Entity :=
  ((doc.metricTypes.get? typeId).getD []).filterMap (doc.getOfKind? .metric)

end Document

end Inventory

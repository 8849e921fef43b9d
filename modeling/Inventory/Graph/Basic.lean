import Inventory.Graph.Index

/-! # The graph

Stores of resources, types and metrics, and an index of the resources. Writing leaves the index as it is;
`reindex` makes it anew. Look-ups by id see every write at once, the listings and links are those of the last
`reindex`.
-/

namespace Inventory

structure Graph where
  resources : Store Resource
  resourceTypes : Store ResourceType
  metrics : Store Metric
  index : Index
  /-- How many records were written since the last `reindex`. -/
  pendingWrites : Nat

structure GraphStats where
  resources : Nat
  resourceTypes : Nat
  metrics : Nat
  topLevel : Nat
  pendingWrites : Nat
deriving DecidableEq, Repr

namespace Graph

def empty : Graph := ⟨.empty, .empty, .empty, .empty, 0⟩

instance : Inhabited Graph := ⟨empty⟩

def addResource (g : Graph) (r : Resource) : Graph :=
  { g with resources := g.resources.put r, pendingWrites := g.pendingWrites + 1 }

def addResourceType (g : Graph) (t : ResourceType) : Graph :=
  { g with resourceTypes := g.resourceTypes.put t, pendingWrites := g.pendingWrites + 1 }

def addMetric (g : Graph) (m : Metric) : Graph :=
  { g with metrics := g.metrics.put m, pendingWrites := g.pendingWrites + 1 }

def reindex (g : Graph) : Graph :=
  { g with index := .ofResources g.resources.records, pendingWrites := 0 }

def isDirty (g : Graph) : Bool :=
  0 < g.pendingWrites

def stats (g : Graph) : GraphStats :=
  ⟨g.resources.size, g.resourceTypes.size, g.metrics.size, g.index.topLevel.length, g.pendingWrites⟩

def resource? (g : Graph) (id : String) : Option Resource :=
  g.resources.get? id

def resourceType? (g : Graph) (id : String) : Option ResourceType :=
  g.resourceTypes.get? id

def metric? (g : Graph) (id : String) : Option Metric :=
  g.metrics.get? id

def childrenOf (g : Graph) (id : String) : List String :=
  g.index.children.idsOf id

def parentsOf (g : Graph) (id : String) : List String :=
  g.index.parents.idsOf id

def topResources (g : Graph) : List Resource :=
  g.resources.getAll g.index.topLevel

def resourcesOfType (g : Graph) (typeId : String) : List Resource :=
  g.resources.getAll (g.index.byType.idsOf typeId)

def allResourceTypes (g : Graph) : List ResourceType :=
  g.resourceTypes.records

/-- The metrics of a resource; unknown ids among them are passed over. -/
def metricsOf? (g : Graph) (id : String) : Option (List Metric) :=
  (g.resource? id).map fun r => g.metrics.getAll r.metricIds

end Graph

end Inventory

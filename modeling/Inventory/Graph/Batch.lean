import Inventory.Graph.Load

/-! # Batches of writes

A batch is a row of writes followed by one `reindex`, so that nobody sees links that are out of date. A batch
that is cut short keeps the writes it has made, but not the `reindex`.
-/

namespace Inventory

inductive Write where
  | record (r : GraphRecord)
  | snapshot (doc : Document)
  | reindex

namespace Graph

def write (g : Graph) : Write → Graph
  | .record r => g.addRecord r
  | .snapshot doc => (g.load doc).1
  | .reindex => g.reindex

def writeAll (g : Graph) (writes : List Write) : Graph :=
  writes.foldl write g

def batch (g : Graph) (writes : List Write) : Graph :=
  (g.writeAll writes).reindex

/-- The graph after a batch that stopped before its `reindex`. -/
def abortedBatch (g : Graph) (writes : List Write) : Graph :=
  g.writeAll writes

def addResources (g : Graph) (rs : List Resource) : Graph :=
  g.batch (rs.map fun r => .record (.resource r))

def addResourceTypes (g : Graph) (ts : List ResourceType) : Graph :=
  g.batch (ts.map fun t => .record (.resourceType t))

def addMetrics (g : Graph) (ms : List Metric) : Graph :=
  g.batch (ms.map fun m => .record (.metric m))

def ingest (g : Graph) (doc : Document) : Graph × LoadStats :=
  let (loaded, stats) := g.load doc
  (loaded.reindex, stats)

end Graph

end Inventory

import Inventory.Chunk.Snapshot
import Inventory.Source.Series

/-! # Questions about an inventory

Each series of an inventory holds the snapshots of one thing of one feed, of which the newest counts. The tags of
a series name the feed and the kind of the thing; those of a resource also list its types of metrics, each between bars.
-/

namespace Inventory.ChunkSource

def feedFilter (feedId : String) : Except Error TagFilter := do
  (← TagFilter.empty.withLiteral "module" "inventory").withLiteral "feed" feedId

/-- The newest snapshots of the series that meet a filter; series without one are passed over. -/
def loadSnapshots (source : ChunkSource) (tenant : String) (filter : TagFilter) :
    Except Error (List Document) := do
  let series ← source.findSeries tenant filter
  let batches ← series.mapM fun s => source.fetchChunks tenant s.id
  let found ← batches.mapM Document.reconstruct
  return found.filterMap id

def tenantsForFeed (source : ChunkSource) (feedId : String) : Except Error (List String) := do
  let filter ← feedFilter feedId
  (← source.tenants).filterM fun tenant => return !(← source.findSeries tenant filter).isEmpty

def metricTypes (source : ChunkSource) (tenant feedId : String) : Except Error (List Entity) := do
  let filter ← (← feedFilter feedId).withLiteral "type" "mt"
  let docs ← source.loadSnapshots tenant filter
  return (docs.map (·.root)).filter (·.kind == .metricType)

def metricsForType (source : ChunkSource) (tenant feedId typeId : String) :
    Except Error (List Entity) := do
  let resources ← (← feedFilter feedId).withLiteral "type" "r"
  let filter ← resources.withSubstring "mtypes" ("|" ++ typeId ++ "|")
  let docs ← source.loadSnapshots tenant filter
  return docs.flatMap (·.metricsOfType typeId)

def resourceSnapshots (source : ChunkSource) (tenant feedId : String) :
    Except Error (List Document) := do
  source.loadSnapshots tenant (← (← feedFilter feedId).withLiteral "type" "r")

end Inventory.ChunkSource

import Inventory.Error
import Inventory.Graph.Format
import Inventory.Graph.Load
import Inventory.Version

/-! # Responses -/

namespace Inventory

inductive Response where
  | done
  | failed (error : Error)
  /-- The answer to what is no request. -/
  | invalidRequest
  | count (n : Nat)
  | resource (r : Option Resource)
  | resources (rs : List Resource)
  | resourceType (t : Option ResourceType)
  | resourceTypes (ts : List ResourceType)
  | metrics (ms : Option (List Metric))
  | tree (root : Option ResourceNode)
  | ingested (stats : Option LoadStats)
  | entities (es : List Entity)
  | stats (s : GraphStats)
  | alive

def GraphStats.toDatum (s : GraphStats) : Datum :=
  .object [("resources", .natural s.resources), ("resourceTypes", .natural s.resourceTypes),
    ("metrics", .natural s.metrics), ("topLevel", .natural s.topLevel),
    ("pendingWrites", .natural s.pendingWrites)]

def LoadStats.toDatum (s : LoadStats) : Datum :=
  .object [("resources", .natural s.resources), ("resourceTypes", .natural s.resourceTypes),
    ("metrics", .natural s.metrics)]

namespace Response

def failure (message kind : String) : Datum :=
  .object [("error", .text message), ("kind", .text kind)]

def listOf {α : Type} (toDatum : α → Datum) (items : List α) : Datum :=
  .list (items.map toDatum)

def toDatum : Response → Datum
  | .done => .object [("ok", .bool true)]
  | .failed e => failure e.message e.kind
  | .invalidRequest => failure "Invalid request" "invalid_request"
  | .count n => .object [("count", .natural n)]
  | .resource r => .object [("resource", .ofOption Resource.toDatum r)]
  | .resources rs => .object [("resources", listOf Resource.toDatum rs)]
  | .resourceType t => .object [("resourceType", .ofOption ResourceType.toDatum t)]
  | .resourceTypes ts => .object [("resourceTypes", listOf ResourceType.toDatum ts)]
  | .metrics ms => .object [("metrics", .ofOption (listOf Metric.toDatum) ms)]
  | .tree root => .object [("tree", .ofOption ResourceNode.toDatum root)]
  | .ingested s => .object [("ingested", .ofOption LoadStats.toDatum s)]
  | .entities es => .object [("entities", listOf Entity.toDatum es)]
  | .stats s => .object [("stats", s.toDatum)]
  | .alive => .object [("pong", .bool true), ("version", .text version)]

end Response

end Inventory

import Inventory.Chunk.Snapshot
import Inventory.Graph.Batch
import Inventory.Graph.Tree
import Inventory.MessagePack.Reader
import Inventory.MessagePack.Writer
import Inventory.Service.Request
import Inventory.Service.Response

/-! # Answering requests

A request is carried out on one graph, which keeps all that is written to it even if the request fails later on.
So all that can fail comes before the first write, and each request that writes is one batch.
-/

namespace Inventory

namespace Request

def isShutdown : Request → Bool
  | .shutdown => true
  | _ => false

end Request

namespace Graph

def snapshotOf (chunks : List WireChunk) : Except Error (Option Document) := do
  Document.reconstruct (← WireChunk.toRecords chunks)

/-- Carries a request out. A failure ends it and leaves the graph as it is by then. -/
def perform : Request → ExceptT Error (StateM Graph) Response
  | .addResources rs => do
    modify (·.addResources rs)
    return .count rs.length
  | .addResourceTypes ts => do
    modify (·.addResourceTypes ts)
    return .count ts.length
  | .addMetrics ms => do
    modify (·.addMetrics ms)
    return .count ms.length
  | .reindex => do
    modify reindex
    return .done
  | .getResource id => return .resource ((← get).resource? id)
  | .getTopResources => return .resources (← get).topResources
  | .getResourcesOfType typeId => return .resources ((← get).resourcesOfType typeId)
  | .getResourceTypes => return .resourceTypes (← get).allResourceTypes
  | .getResourceType id => return .resourceType ((← get).resourceType? id)
  | .getMetricsOf id => return .metrics ((← get).metricsOf? id)
  | .getTree id => return .tree (← (← get).tree? .wire id)
  | .ingest chunks => do
    match ← snapshotOf chunks with
    | some doc => return .ingested (some (← modifyGet fun g => (g.ingest doc).swap))
    | none => return .ingested none
  | .metricsOfType chunks typeId => do
    let doc ← snapshotOf chunks
    return .entities ((doc.map (·.metricsOfType typeId)).getD [])
  | .stats => return .stats (← get).stats
  | .ping => return .alive
  | .shutdown => return .done

def answer (g : Graph) (request : Request) : Graph × Response :=
  match ((perform request).run.run g).run with
  | (.ok response, g) => (g, response)
  | (.error e, g) => (g, .failed e)

/-- The graph, the response frame, and whether the service is to end. -/
def answerFrame (g : Graph) (frame : Bytes) : Graph × Bytes × Bool :=
  match (MessagePack.read? frame).bind Request.ofDatum? with
  | some request =>
    let (g, response) := g.answer request
    (g, MessagePack.write response.toDatum, request.isShutdown)
  | none => (g, MessagePack.write Response.invalidRequest.toDatum, false)

end Graph

end Inventory

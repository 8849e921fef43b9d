import Inventory.Chunk.Record
import Inventory.Graph.Format

/-! # Requests

A request is a command with its arguments. As data it is a map in which the entry `cmd` tells the command and the
others are its arguments by name, or a list of the command and its arguments in order.
-/

namespace Inventory

inductive Command where
  | addResources
  | addResourceTypes
  | addMetrics
  | reindex
  | getResource
  | getTopResources
  | getResourcesOfType
  | getResourceTypes
  | getResourceType
  | getMetricsOf
  | getTree
  | ingest
  | metricsOfType
  | stats
  | ping
  | shutdown
deriving DecidableEq, Repr

inductive Request where
  | addResources (resources : List Resource)
  | addResourceTypes (resourceTypes : List ResourceType)
  | addMetrics (metrics : List Metric)
  | reindex
  | getResource (id : String)
  | getTopResources
  | getResourcesOfType (typeId : String)
  | getResourceTypes
  | getResourceType (id : String)
  | getMetricsOf (id : String)
  | getTree (id : String)
  /-- Load the snapshot that the chunks hold. -/
  | ingest (chunks : List WireChunk)
  /-- The metrics of a type in the snapshot that the chunks hold. -/
  | metricsOfType (chunks : List WireChunk) (typeId : String)
  | stats
  | ping
  | shutdown
deriving DecidableEq

namespace Command

/-- All commands, in the order of their numbers. -/
def all : List Command :=
  [.addResources, .addResourceTypes, .addMetrics, .reindex, .getResource, .getTopResources,
    .getResourcesOfType, .getResourceTypes, .getResourceType, .getMetricsOf, .getTree, .ingest,
    .metricsOfType, .stats, .ping, .shutdown]

def name : Command → String
  | .addResources => "addResources"
  | .addResourceTypes => "addResourceTypes"
  | .addMetrics => "addMetrics"
  | .reindex => "reindex"
  | .getResource => "getResource"
  | .getTopResources => "getTopResources"
  | .getResourcesOfType => "getResourcesByType"
  | .getResourceTypes => "getResourceTypes"
  | .getResourceType => "getResourceType"
  | .getMetricsOf => "getResourceMetrics"
  | .getTree => "getTree"
  | .ingest => "ingestChunks"
  | .metricsOfType => "metricsOfType"
  | .stats => "stats"
  | .ping => "ping"
  | .shutdown => "shutdown"

theorem mem_all (c : Command) : c ∈ all := by
  cases c <;> decide

def ofDatum? : Datum → Option Command
  | .unsigned n => all[n]?
  | d => d.text?.bind fun s => all.find? (·.name == s)

end Command

namespace Request

/-- A command without arguments, which ignores entries of a map but takes no items of a list. -/
def alone? (request : Request) : Datum → Option Request
  | .map _ => some request
  | .list [] => some request
  | _ => none

def withId? (request : String → Request) (name : String) (arguments : Datum) : Option Request := do
  let fields ← arguments.fields? [name]
  return request (← fields.required name Datum.text?)

def withList? {α : Type} (request : List α → Request) (name : String) (read : Datum → Option α)
    (arguments : Datum) : Option Request := do
  let fields ← arguments.fields? [name]
  return request (← fields.required name (Datum.list? read))

def metricsOfType? (arguments : Datum) : Option Request := do
  let fields ← arguments.fields? ["chunks", "typeId"]
  return .metricsOfType (← fields.required "chunks" (Datum.list? WireChunk.ofDatum?))
    (← fields.required "typeId" Datum.text?)

def ofCommand? : Command → Datum → Option Request
  | .addResources => withList? .addResources "resources" Resource.ofDatum?
  | .addResourceTypes => withList? .addResourceTypes "resourceTypes" ResourceType.ofDatum?
  | .addMetrics => withList? .addMetrics "metrics" (Metric.ofDatum? true)
  | .reindex => alone? .reindex
  | .getResource => withId? .getResource "id"
  | .getTopResources => alone? .getTopResources
  | .getResourcesOfType => withId? .getResourcesOfType "typeId"
  | .getResourceTypes => alone? .getResourceTypes
  | .getResourceType => withId? .getResourceType "id"
  | .getMetricsOf => withId? .getMetricsOf "id"
  | .getTree => withId? .getTree "id"
  | .ingest => withList? .ingest "chunks" WireChunk.ofDatum?
  | .metricsOfType => metricsOfType?
  | .stats => alone? .stats
  | .ping => alone? .ping
  | .shutdown => alone? .shutdown

def isCommandKey (key : Key) : Bool :=
  key.text? == some "cmd"

def ofDatum? : Datum → Option Request
  | .list (command :: arguments) =>
    (Command.ofDatum? command).bind fun c => ofCommand? c (.list arguments)
  | .map entries =>
    match entries.partition (isCommandKey ·.1) with
    | ([(_, command)], arguments) =>
      (Command.ofDatum? command).bind fun c => ofCommand? c (.map arguments)
    | _ => none
  | _ => none

end Request

end Inventory

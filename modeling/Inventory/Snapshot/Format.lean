import Inventory.Datum.Fields
import Inventory.Json.Printer
import Inventory.Json.Reader
import Inventory.Snapshot.Document

/-! # The written form of snapshots

`toDatum` says how entities, structures and documents are written, `ofDatum?` reads them. An entity names
its kind in the field `kind`; it is read as a whole before its kind is known, so no part of it may be
undefined. Documents are exchanged as JSON text.
-/

namespace Inventory

open Datum

def MetricUnit.ofDatum? (heldBack : Bool) (d : Datum) : Option MetricUnit :=
  (d.variant? heldBack (MetricUnit.all.map (·.name))).bind ofName?

def DataKind.ofDatum? (heldBack : Bool) (d : Datum) : Option DataKind :=
  (d.variant? heldBack (DataKind.all.map (·.name))).bind ofName?

namespace Operation

def toDatum (o : Operation) : Datum :=
  .object [("name", .text o.name), ("parameters", o.parameters.toDatum)]

def ofDatum? (d : Datum) : Option Operation := do
  let fields ← d.fields? ["name", "parameters"]
  return {
    name := ← fields.required "name" text?
    parameters := ← fields.defaulted "parameters" properties? .empty }

end Operation

namespace EntityKind

def tag : EntityKind → String
  | .resourceType => "resourceType"
  | .metricType => "metricType"
  | .resource => "resource"
  | .metric => "metric"

def ofTag? : String → Option EntityKind
  | "resourceType" => some .resourceType
  | "metricType" => some .metricType
  | "resource" => some .resource
  | "metric" => some .metric
  | _ => none

end EntityKind

namespace Entity

def fieldNames : EntityKind → List String
  | .resourceType => ["id", "name", "operations", "properties"]
  | .metricType => ["id", "name", "dataKind", "unit", "collectionInterval", "properties"]
  | .resource => ["id", "name", "resourceTypePath", "properties"]
  | .metric => ["id", "name", "metricTypePath", "properties"]

def toDatum (e : Entity) : Datum :=
  .object <|
    [("kind", .text e.kind.tag), ("id", .text e.id), ("name", .text e.name)] ++
    match e with
    | .resourceType _ _ operations properties =>
      [("operations", .list (operations.map Operation.toDatum)),
       ("properties", properties.toDatum)]
    | .metricType _ _ dataKind unit collectionInterval properties =>
      [("dataKind", .text dataKind.name), ("unit", .text unit.name),
       ("collectionInterval", .natural collectionInterval.toNat),
       ("properties", properties.toDatum)]
    | .resource _ _ none properties => [("properties", properties.toDatum)]
    | .resource _ _ (some path) properties =>
      [("resourceTypePath", .text path), ("properties", properties.toDatum)]
    | .metric _ _ path properties =>
      [("metricTypePath", .text path), ("properties", properties.toDatum)]

def ofFields? (kind : EntityKind) (fields : Fields) : Option Entity := do
  let id ← fields.required "id" text?
  let name ← fields.required "name" text?
  let properties ← fields.defaulted "properties" properties? .empty
  match kind with
  | .resourceType =>
    let operations ← fields.defaulted "operations" (list? Operation.ofDatum?) []
    return .resourceType id name operations properties
  | .metricType =>
    let dataKind ← fields.required "dataKind" (DataKind.ofDatum? true)
    let unit ← fields.defaulted "unit" (MetricUnit.ofDatum? true) .none
    let interval ← fields.defaulted "collectionInterval" uint64? 0
    return .metricType id name dataKind unit interval properties
  | .resource =>
    let path ← fields.defaulted "resourceTypePath" textOrNull? none
    return .resource id name path properties
  | .metric =>
    let path ← fields.required "metricTypePath" text?
    return .metric id name path properties

def kindOf? : Datum → Option EntityKind
  | .text tag => EntityKind.ofTag? tag
  | _ => none

/-- The entries of a map without its field `kind`, and that field, which it must have once. -/
def takeKind? (entries : List (Key × Datum)) : Option (EntityKind × List (Key × Datum)) :=
  match entries.partition (·.1 == .text "kind") with
  | ([(_, d)], rest) => (kindOf? d).map (·, rest)
  | _ => none

def ofDatum? (d : Datum) : Option Entity :=
  if !d.isDefined then none
  else match d with
    | .map entries => do
      let (kind, rest) ← takeKind? entries
      ofFields? kind (← (Datum.map rest).fields? (fieldNames kind))
    | .list (tag :: items) => do
      let kind ← kindOf? tag
      ofFields? kind (← (Datum.list items).fields? (fieldNames kind))
    | _ => none

end Entity

namespace Structure

def fieldNames : List String := ["entity", "children"]

mutual

/-- A node without children is written without the field. -/
def toDatum : Structure → Datum
  | .node entity [] => .object [("entity", entity.toDatum)]
  | .node entity (c :: cs) =>
    .object [("entity", entity.toDatum), ("children", .list (toDatum c :: toItems cs))]

def toItems : List Structure → List Datum
  | [] => []
  | s :: rest => toDatum s :: toItems rest

end

mutual

def ofDatum? : Datum → Option Structure
  | .map entries => do
    let fields ← fieldsOfEntries? fieldNames entries
    let entity ← fields.required "entity" Entity.ofDatum?
    return .node entity (← childrenOf? entries)
  | .list [entity] => (Entity.ofDatum? entity).map (.node · [])
  | .list [entity, children] => do
    return .node (← Entity.ofDatum? entity) (← ofList? children)
  | _ => none

def ofList? : Datum → Option (List Structure)
  | .list items => ofItems? items
  | _ => none

def ofItems? : List Datum → Option (List Structure)
  | [] => some []
  | d :: rest => (ofDatum? d).bind fun s => (ofItems? rest).map (s :: ·)

def childrenOf? : List (Key × Datum) → Option (List Structure)
  | [] => some []
  | (key, d) :: rest =>
    if fieldOf? fieldNames key = some (some "children") then ofList? d else childrenOf? rest

end

end Structure

namespace Document

def fieldNames : List String := ["structure", "resourceTypesIndex", "metricTypesIndex"]

def indexToDatum (index : TypeIndex) : Datum :=
  ofSortedMap .texts index

def indexOfDatum? (d : Datum) : Option TypeIndex :=
  d.sortedMap? (list? text?)

def toDatum (doc : Document) : Datum :=
  .object [("structure", doc.tree.toDatum), ("resourceTypesIndex", indexToDatum doc.resourceTypes),
    ("metricTypesIndex", indexToDatum doc.metricTypes)]

def ofDatum? (d : Datum) : Option Document := do
  let fields ← d.fields? fieldNames
  return {
    tree := ← fields.required "structure" Structure.ofDatum?
    resourceTypes := ← fields.defaulted "resourceTypesIndex" indexOfDatum? .empty
    metricTypes := ← fields.defaulted "metricTypesIndex" indexOfDatum? .empty }

def render (doc : Document) : String :=
  Json.print doc.toDatum

def parse? (text : String) : Option Document :=
  (Json.decode? text).bind ofDatum?

end Document

end Inventory

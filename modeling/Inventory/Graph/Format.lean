import Inventory.Graph.Record
import Inventory.Snapshot.Format

/-! # The written form of graph records

`heldBack` says that the record is part of something that was read as a whole before its kind was known.
-/

namespace Inventory

open Datum

namespace Resource

def fieldNames : List String :=
  ["id", "name", "typeId", "parentId", "childIds", "metricIds", "properties"]

def toDatum (r : Resource) : Datum :=
  .object <|
    [("id", .text r.id), ("name", .text r.name), ("typeId", .text r.typeId)] ++
    (match r.parentId with
      | some id => [("parentId", .text id)]
      | none => []) ++
    [("childIds", .texts r.childIds), ("metricIds", .texts r.metricIds),
     ("properties", r.properties.toDatum)]

/-- A resource; an empty parent means none. -/
def ofDatum? (d : Datum) : Option Resource := do
  let fields ← d.fields? fieldNames
  let parentId ← fields.defaulted "parentId" textOrNull? none
  return {
    id := ← fields.required "id" text?
    name := ← fields.required "name" text?
    typeId := ← fields.required "typeId" text?
    parentId := parentId.filter (· != "")
    childIds := ← fields.defaulted "childIds" (list? text?) []
    metricIds := ← fields.defaulted "metricIds" (list? text?) []
    properties := ← fields.defaulted "properties" properties? .empty }

end Resource

namespace ResourceType

def fieldNames : List String := ["id", "operations", "properties"]

def toDatum (t : ResourceType) : Datum :=
  .object [("id", .text t.id), ("operations", .list (t.operations.map Operation.toDatum)),
    ("properties", t.properties.toDatum)]

def ofDatum? (d : Datum) : Option ResourceType := do
  let fields ← d.fields? fieldNames
  return {
    id := ← fields.required "id" text?
    operations := ← fields.defaulted "operations" (list? Operation.ofDatum?) []
    properties := ← fields.defaulted "properties" properties? .empty }

end ResourceType

namespace Metric

def fieldNames : List String :=
  ["id", "name", "displayName", "unit", "collectionInterval", "properties"]

def toDatum (m : Metric) : Datum :=
  .object [("id", .text m.id), ("name", .text m.name), ("displayName", .text m.displayName),
    ("unit", .text m.unit.name), ("collectionInterval", .natural m.collectionInterval.toNat),
    ("properties", m.properties.toDatum)]

def ofDatum? (heldBack : Bool) (d : Datum) : Option Metric := do
  let fields ← d.fields? fieldNames
  return {
    id := ← fields.required "id" text?
    name := ← fields.required "name" text?
    displayName := ← fields.required "displayName" text?
    unit := ← fields.defaulted "unit" (MetricUnit.ofDatum? heldBack) .none
    collectionInterval := ← fields.defaulted "collectionInterval" uint64? 0
    properties := ← fields.defaulted "properties" properties? .empty }

end Metric

namespace ResourceNode

def fieldNames : List String := ["id", "name", "typeId", "children"]

mutual

def toDatum : ResourceNode → Datum
  | .node id name typeId children =>
    .object [("id", .text id), ("name", .text name), ("typeId", .text typeId),
      ("children", .list (toItems children))]

def toItems : List ResourceNode → List Datum
  | [] => []
  | n :: rest => toDatum n :: toItems rest

end

def ofFields? (fields : Fields) (children : List ResourceNode) : Option ResourceNode := do
  let id ← fields.required "id" text?
  let name ← fields.required "name" text?
  let typeId ← fields.required "typeId" text?
  return .node id name typeId children

mutual

def ofDatum? : Datum → Option ResourceNode
  | .map entries => do
    let fields ← fieldsOfEntries? fieldNames entries
    ofFields? fields (← childrenOf? entries)
  | .list [id, name, typeId] => ofFields? (fieldNames.zip [id, name, typeId]) []
  | .list [id, name, typeId, children] => do
    ofFields? (fieldNames.zip [id, name, typeId]) (← ofList? children)
  | _ => none

def ofList? : Datum → Option (List ResourceNode)
  | .list items => ofItems? items
  | _ => none

def ofItems? : List Datum → Option (List ResourceNode)
  | [] => some []
  | d :: rest => (ofDatum? d).bind fun n => (ofItems? rest).map (n :: ·)

def childrenOf? : List (Key × Datum) → Option (List ResourceNode)
  | [] => some []
  | (key, d) :: rest =>
    if fieldOf? fieldNames key = some (some "children") then ofList? d else childrenOf? rest

end

end ResourceNode

end Inventory

import Inventory.Datum.Fields
import Inventory.Error
import Inventory.Text.Base64
import Inventory.Text.Blank

/-! # Chunk records

A store caps the size of a record, so a payload may stand in several records, the newest first, with time
stamps that descend by one. The first of them, the master, tells in its tags how many records there are and how
long the payload is.
-/

namespace Inventory

def chunksTag : String := "chunks"

def sizeTag : String := "size"

abbrev Tags := SortedMap String

structure ChunkRecord where
  timestamp : Int64
  payload : Bytes
  tags : Tags
deriving DecidableEq

namespace ChunkRecord

/-- Whether the record announces a sequence. -/
def isMaster (r : ChunkRecord) : Bool :=
  r.tags.contains chunksTag

def ofBase64 (timestamp : Int64) (value : String) (tags : Tags) : Except Error ChunkRecord :=
  match Base64.decode? (Text.trim value) with
  | some payload => .ok ⟨timestamp, payload, tags⟩
  | none => .error (.malformedSnapshot (.base64 timestamp))

def payloadBase64 (r : ChunkRecord) : String :=
  Base64.encode r.payload

def tagsToDatum (tags : Tags) : Datum :=
  Datum.ofSortedMap .text tags

def tagsOfDatum? (d : Datum) : Option Tags :=
  d.sortedMap? Datum.text?

def toDatum (r : ChunkRecord) : Datum :=
  .object [("timestamp", .integer r.timestamp.toInt),
    ("payload", .list (r.payload.map fun b => .natural b.toNat)), ("tags", tagsToDatum r.tags)]

def ofDatum? (d : Datum) : Option ChunkRecord := do
  let fields ← d.fields? ["timestamp", "payload", "tags"]
  return {
    timestamp := ← fields.required "timestamp" Datum.int64?
    payload := ← fields.required "payload" (Datum.list? Datum.byte?)
    tags := ← fields.defaulted "tags" tagsOfDatum? .empty }

end ChunkRecord

/-- A record as it is sent, its payload in base64. -/
structure WireChunk where
  timestamp : Int64
  value : String
  tags : Tags
deriving DecidableEq

namespace WireChunk

def ofRecord (r : ChunkRecord) : WireChunk :=
  ⟨r.timestamp, r.payloadBase64, r.tags⟩

def toRecord (c : WireChunk) : Except Error ChunkRecord :=
  ChunkRecord.ofBase64 c.timestamp c.value c.tags

def toRecords (chunks : List WireChunk) : Except Error (List ChunkRecord) :=
  chunks.mapM toRecord

def toDatum (c : WireChunk) : Datum :=
  .object [("timestamp", .integer c.timestamp.toInt), ("value", .text c.value),
    ("tags", ChunkRecord.tagsToDatum c.tags)]

def ofDatum? (d : Datum) : Option WireChunk := do
  let fields ← d.fields? ["timestamp", "value", "tags"]
  return {
    timestamp := ← fields.required "timestamp" Datum.int64?
    value := ← fields.required "value" Datum.text?
    tags := ← fields.defaulted "tags" ChunkRecord.tagsOfDatum? .empty }

end WireChunk

end Inventory

import Inventory.Service.Answer
import Inventory.Json.Reader

/-! # A graph to begin with -/

namespace Inventory

def WireChunk.parseAll? (text : String) : Option (List WireChunk) :=
  (Json.decode? text).bind (Datum.list? WireChunk.ofDatum?)

/-- The graph of the snapshot in a text with chunks; without a snapshot it is empty. -/
def Graph.preload (text : String) : Except Error Graph := do
  let chunks ← (WireChunk.parseAll? text).elim (.error .json) .ok
  match ← snapshotOf chunks with
  | some doc => return (empty.ingest doc).1
  | none => return empty

end Inventory

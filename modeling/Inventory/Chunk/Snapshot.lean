import Inventory.Chunk.Assembly
import Inventory.Chunk.Split
import Inventory.Gzip.Member
import Inventory.Snapshot.Format

/-! # Snapshots in records

A document is stored as compressed JSON text in one or more records. `Document.split` writes it,
`Document.reconstruct` reads the newest snapshot in a row of records.
-/

namespace Inventory.Document

def compress (doc : Document) : Bytes :=
  Gzip.pack (Text.utf8 doc.render)

def split (doc : Document) (size : Nat) (latest : Int64) : List ChunkRecord :=
  ChunkRecord.split size latest doc.compress

def expandText (payload : Bytes) : Except Error String :=
  match (Gzip.expand? payload).bind Text.ofUtf8? with
  | some text => .ok text
  | none => .error (.malformedSnapshot .gzip)

def ofPayload (payload : Bytes) : Except Error Document := do
  match parse? (← expandText payload) with
  | some doc => return doc
  | none => throw (.malformedSnapshot .json)

/-- The newest snapshot in records that stand newest first; there is none without records, or if the first
payload is empty. -/
def reconstruct : List ChunkRecord → Except Error (Option Document)
  | [] => .ok none
  | master :: others =>
    if master.payload.isEmpty then .ok none
    else do
      let payload ← if master.isMaster then ChunkRecord.assemble master others else .ok master.payload
      return some (← ofPayload payload)

end Inventory.Document

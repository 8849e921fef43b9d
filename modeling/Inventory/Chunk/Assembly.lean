import Inventory.Chunk.Record
import Inventory.Text.Natural

/-! # Joining records

`assemble` checks a sequence of records against the tags of its master and joins their payloads. The checks
come in this order: the tags, the number of records, their time stamps, the length of the whole. Records
behind the announced number belong to something older.
-/

namespace Inventory.ChunkRecord

def badTag (tag : String) (value : Option String) : Error :=
  .invalidChunkSequence (.badTag tag value)

/-- The number in a tag, which is below 2^64 and may have white space around it. -/
def numberTag (master : ChunkRecord) (tag : String) : Except Error Nat :=
  match master.tags.get? tag with
  | none => .error (badTag tag none)
  | some text =>
    match Text.natural? UInt64.size (Text.trimChars text.toList) with
    | some n => .ok n
    | none => .error (badTag tag (some text))

def before? (timestamp : Int64) : Option Int64 :=
  if timestamp = Int64.minValue then none else some (timestamp - 1)

/-- Whether the time stamps descend by one; `index` is the place of the first record here. -/
def checkTimestamps (index : Nat) (previous : Int64) : List ChunkRecord → Except Error Unit
  | [] => .ok ()
  | r :: rest =>
    if before? previous = some r.timestamp then checkTimestamps (index + 1) r.timestamp rest
    else .error (.invalidChunkSequence
      (.nonContiguous index r.timestamp ((before? previous).getD previous)))

/-- Whether the payloads stay within the declared length; `total` bytes came before. -/
def checkTotals (declared index total : Nat) : List ChunkRecord → Except Error Unit
  | [] => .ok ()
  | r :: rest =>
    if total + r.payload.length ≤ declared then
      checkTotals declared (index + 1) (total + r.payload.length) rest
    else .error (.invalidChunkSequence
      (.sizeOverflow index (total + r.payload.length) declared))

def payloads (records : List ChunkRecord) : Bytes :=
  records.flatMap (·.payload)

def assemble (master : ChunkRecord) (others : List ChunkRecord) : Except Error Bytes := do
  let count ← master.numberTag chunksTag
  let size ← master.numberTag sizeTag
  if count = 0 then throw (badTag chunksTag (master.tags.get? chunksTag))
  if others.length + 1 < count then throw (.incompleteChunks count (others.length + 1))
  let others := others.take (count - 1)
  checkTimestamps 1 master.timestamp others
  let whole := payloads (master :: others)
  if whole.length < size then
    throw (.invalidChunkSequence (.sizeMismatch whole.length size))
  checkTotals size 0 0 (master :: others)
  return whole

end Inventory.ChunkRecord

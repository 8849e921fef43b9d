import Inventory.Chunk.Record
import Inventory.Text.Natural

/-! # Cutting a payload into records

`cuts` are the pieces of a byte string, all of the given length but the last; joined they are the byte string
(`flatten_cuts`). Only a payload that needs several records is tagged.
-/

namespace Inventory

/-- Pieces of `size` bytes; a size of zero cuts nothing. -/
def cuts (size : Nat) (bytes : Bytes) : List Bytes :=
  if 0 < size ∧ size < bytes.length then bytes.take size :: cuts size (bytes.drop size)
  else [bytes]
termination_by bytes.length
decreasing_by simp; omega

theorem flatten_cuts (size : Nat) (bytes : Bytes) : (cuts size bytes).flatten = bytes := by
  fun_induction cuts size bytes with
  | case1 bytes h ih => simp [ih]
  | case2 bytes h => simp

namespace ChunkRecord

/-- Untagged records of the pieces, their time stamps descending from `latest`. -/
def descending (latest : Int64) : List Bytes → List ChunkRecord
  | [] => []
  | piece :: rest => ⟨latest, piece, .empty⟩ :: descending (latest - 1) rest

def masterTags (count size : Nat) : Tags :=
  .ofList [(chunksTag, Text.decimalText count), (sizeTag, Text.decimalText size)]

/-- Records of at most `size` bytes each, the newest first. -/
def split (size : Nat) (latest : Int64) (payload : Bytes) : List ChunkRecord :=
  match descending latest (cuts size payload) with
  | master :: next :: rest =>
    { master with tags := masterTags (rest.length + 2) payload.length } :: next :: rest
  | records => records

end ChunkRecord

end Inventory

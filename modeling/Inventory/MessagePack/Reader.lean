import Inventory.MessagePack.Head

/-! # Reading MessagePack

The value at the start of a byte string; what follows it does not matter. Containers, and extensions with them,
stand inside one another at most `depthLimit` deep. An extension has no meaning, and a key that is neither a
text nor bytes nor a small index names nothing.
-/

namespace Inventory.MessagePack

def depthLimit : Nat := 1023

/-- `count` parts one after the other, and the rest; `reversed` were read before. -/
def readMany? {α : Type} (read? : Bytes → Option (α × Bytes)) :
    (count : Nat) → (reversed : List α) → Bytes → Option (List α × Bytes)
  | 0, reversed, bytes => some (reversed.reverse, bytes)
  | count + 1, reversed, bytes =>
    match read? bytes with
    | some (a, rest) => readMany? read? count (a :: reversed) rest
    | none => none

/-- A value, what it names as a key, and the rest; at most `levels` containers may be open in it. -/
def readValue? : (levels : Nat) → Bytes → Option ((Datum × Key) × Bytes)
  | 0, bytes =>
    match head? bytes with
    | some (.scalar d key, rest) => some ((d, key), rest)
    | _ => none
  | levels + 1, bytes =>
    match head? bytes with
    | some (.scalar d key, rest) => some ((d, key), rest)
    | some (.extension, rest) => some ((.undefined, .other), rest)
    | some (.list count, rest) =>
      (readMany? (readValue? levels) count [] rest).map fun (items, rest) =>
        ((.list (items.map (·.1)), .other), rest)
    | some (.map count, rest) =>
      (readMany? (readPair? (readValue? levels)) count [] rest).map fun (entries, rest) =>
        ((.map entries, .other), rest)
    | none => none
where
  /-- A key and the value of its entry. -/
  readPair? (read? : Bytes → Option ((Datum × Key) × Bytes)) (bytes : Bytes) :
      Option ((Key × Datum) × Bytes) :=
    (read? bytes).bind fun ((_, key), rest) =>
      (read? rest).map fun ((d, _), rest) => ((key, d), rest)

def read? (bytes : Bytes) : Option Datum :=
  (readValue? depthLimit bytes).map fun ((d, _), _) => d

end Inventory.MessagePack

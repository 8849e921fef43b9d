import Inventory.Text.Natural
import Inventory.Text.Quoted

/-! # What can go wrong

`Error` lists the causes, `Error.kind` and `Error.message` name them for a caller and for a reader.
-/

namespace Inventory

/-- Why records do not make up one payload. -/
inductive SequenceFault where
  | nonContiguous (index : Nat) (timestamp expected : Int64)
  | sizeOverflow (index accumulated declared : Nat)
  | sizeMismatch (assembled declared : Nat)
  /-- A tag of the first record that is missing, or has a value of no use. -/
  | badTag (tag : String) (value : Option String)
deriving DecidableEq, Repr

inductive SnapshotFault where
  | json
  | gzip
  | base64 (timestamp : Int64)
  | described (text : String)
deriving DecidableEq, Repr

inductive PathFault where
  | notAbsolute (path : String)
  | badSegment (segment path : String)
  | described (text : String)
deriving DecidableEq, Repr

inductive FilterFault where
  | notKeyValue (condition : String)
  | badPattern (key : String)
  | described (text : String)
deriving DecidableEq, Repr

inductive Error where
  | incompleteChunks (expected available : Nat)
  | invalidChunkSequence (fault : SequenceFault)
  | malformedSnapshot (fault : SnapshotFault)
  | cycleDetected (id : String) (path : List String)
  | treeLimitExceeded (root what : String) (limit : Nat)
  | invalidPath (fault : PathFault)
  | invalidFilter (fault : FilterFault)
  | source (text : String)
  | sink (text : String)
  | io (text : String)
  | json
  | encode
deriving DecidableEq, Repr

open Text (decimalText integerText quoted)

def SequenceFault.message : SequenceFault → String
  | .nonContiguous index timestamp expected =>
    "chunk n°" ++ decimalText index ++ " timestamp is " ++ integerText timestamp.toInt ++
      ", expecting " ++ integerText expected.toInt
  | .sizeOverflow index accumulated declared =>
    "chunk n°" ++ decimalText index ++ " overflows declared size: " ++ decimalText accumulated ++
      " bytes accumulated, " ++ decimalText declared ++ " declared"
  | .sizeMismatch assembled declared =>
    "assembled " ++ decimalText assembled ++ " bytes, " ++ decimalText declared ++ " declared"
  | .badTag tag (some value) => "invalid '" ++ tag ++ "' tag on master chunk: " ++ quoted value
  | .badTag tag none => "missing '" ++ tag ++ "' tag on master chunk"

def SnapshotFault.message : SnapshotFault → String
  | .json => "invalid snapshot JSON"
  | .gzip => "gzip decode failed"
  | .base64 timestamp => "chunk " ++ integerText timestamp.toInt ++ " is not base64"
  | .described text => text

def PathFault.message : PathFault → String
  | .notAbsolute path => "'" ++ path ++ "' is not absolute"
  | .badSegment segment path => "bad segment '" ++ segment ++ "' in '" ++ path ++ "'"
  | .described text => text

def FilterFault.message : FilterFault → String
  | .notKeyValue condition => "'" ++ condition ++ "' is not key:value"
  | .badPattern key => "bad pattern for '" ++ key ++ "'"
  | .described text => text

namespace Error

def kind : Error → String
  | .incompleteChunks .. => "incomplete_chunks"
  | .invalidChunkSequence _ => "invalid_chunk_sequence"
  | .malformedSnapshot _ => "malformed_snapshot"
  | .cycleDetected .. => "cycle_detected"
  | .treeLimitExceeded .. => "tree_limit_exceeded"
  | .invalidPath _ => "invalid_path"
  | .invalidFilter _ => "invalid_filter"
  | .source _ => "source"
  | .sink _ => "sink"
  | .io _ => "io"
  | .json => "json"
  | .encode => "encode"

def message : Error → String
  | .incompleteChunks expected available =>
    "Inventory sanity check failure: " ++ decimalText expected ++ " chunks expected, only " ++
      decimalText available ++ " are available"
  | .invalidChunkSequence fault => "Inventory sanity check failure: " ++ fault.message
  | .malformedSnapshot fault => "Malformed snapshot: " ++ fault.message
  | .cycleDetected id path =>
    "Cycle detected: " ++ id ++ " is already an ancestor on path " ++ " -> ".intercalate path
  | .treeLimitExceeded root what limit =>
    "Tree under " ++ quoted root ++ " exceeds the " ++ what ++ " limit of " ++ decimalText limit
  | .invalidPath fault => "Invalid path: " ++ fault.message
  | .invalidFilter fault => "Invalid tag filter: " ++ fault.message
  | .source text => "Chunk source error: " ++ text
  | .sink text => "Alert sink error: " ++ text
  | .io text => "IO error: " ++ text
  | .json => "JSON error"
  | .encode => "Encode error"

end Error

end Inventory

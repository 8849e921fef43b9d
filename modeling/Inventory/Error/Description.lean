import Inventory.Error
import Inventory.Text.Cut

/-! # Faults told in words

A description may begin with the words of a fault and go on with a colon and details. It then tells of just that
fault. A key may hold any characters, so it ends at the last quote with a colon behind it.
-/

namespace Inventory

/-- Whether a description is the words of a fault with details behind them. -/
def isDetailed (words description : String) : Bool :=
  (words ++ ": ").toList.isPrefixOf description.toList

def SnapshotFault.ofDescription (description : String) : SnapshotFault :=
  if isDetailed SnapshotFault.json.message description then .json
  else if isDetailed SnapshotFault.gzip.message description then .gzip
  else
    let time := ("chunk ".toList.isPrefixOf? description.toList).bind (Text.before? " is not base64: ".toList)
    match time with
    | some time => .described ("chunk " ++ String.ofList time ++ " is not base64")
    | none => .described description

def FilterFault.ofDescription (description : String) : FilterFault :=
  let key :=
    ("bad pattern for '".toList.isPrefixOf? description.toList).bind (Text.beforeLast? "': ".toList)
  match key with
  | some key => .badPattern (String.ofList key)
  | none => .described description

end Inventory

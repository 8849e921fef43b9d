import Inventory.Snapshot.Entity

/-! # Records of the graph

Resources, types of resources, and metrics, each under an id of its own. The links between resources are
ids: of children, of metrics, and of at most one parent.
-/

namespace Inventory

structure Resource where
  id : String
  name : String
  typeId : String
  parentId : Option String
  childIds : List String
  metricIds : List String
  properties : Properties
deriving DecidableEq

namespace Resource

def plain (id name typeId : String) : Resource :=
  ⟨id, name, typeId, none, [], [], .empty⟩

/-- The resource with another parent; an empty id means none. -/
def withParent (r : Resource) (parentId : String) : Resource :=
  { r with parentId := if parentId = "" then none else some parentId }

def isTopLevel (r : Resource) : Bool :=
  r.parentId.isNone

end Resource

structure ResourceType where
  id : String
  operations : List Operation
  properties : Properties
deriving DecidableEq

structure Metric where
  id : String
  name : String
  displayName : String
  unit : MetricUnit
  /-- In seconds. -/
  collectionInterval : UInt64
  properties : Properties
deriving DecidableEq

class HasId (α : Type) where
  id : α → String

instance : HasId Resource := ⟨Resource.id⟩
instance : HasId ResourceType := ⟨ResourceType.id⟩
instance : HasId Metric := ⟨Metric.id⟩

inductive ResourceNode where
  | node (id name typeId : String) (children : List ResourceNode)

namespace ResourceNode

def id : ResourceNode → String
  | .node id .. => id

def children : ResourceNode → List ResourceNode
  | .node _ _ _ children => children

mutual

def same : ResourceNode → ResourceNode → Bool
  | .node i n t as, .node j m u bs => i == j && n == m && t == u && sameAll as bs

def sameAll : List ResourceNode → List ResourceNode → Bool
  | [], [] => true
  | a :: as, b :: bs => same a b && sameAll as bs
  | _, _ => false

end

mutual

theorem same_iff : ∀ a b : ResourceNode, same a b = true ↔ a = b
  | .node _ _ _ as, .node _ _ _ bs => by simp [same, sameAll_iff as bs, and_assoc]

theorem sameAll_iff : ∀ as bs : List ResourceNode, sameAll as bs = true ↔ as = bs
  | [], bs => by cases bs <;> simp [sameAll]
  | a :: as, bs => by
    cases bs with
    | nil => simp [sameAll]
    | cons b bs => simp [sameAll, same_iff a b, sameAll_iff as bs]

end

instance : DecidableEq ResourceNode := fun a b => decidable_of_iff _ (same_iff a b)

mutual

/-- The ids of the tree in preorder with the depths they stand at. -/
def rowsFrom (depth : Nat) : ResourceNode → List (Nat × String)
  | .node id _ _ children => (depth, id) :: rowsBelow (depth + 1) children

def rowsBelow (depth : Nat) : List ResourceNode → List (Nat × String)
  | [] => []
  | c :: rest => rowsFrom depth c ++ rowsBelow depth rest

end

def rows (n : ResourceNode) : List (Nat × String) :=
  n.rowsFrom 0

mutual

def count : ResourceNode → Nat
  | .node _ _ _ children => countAll children + 1

def countAll : List ResourceNode → Nat
  | [] => 0
  | c :: rest => count c + countAll rest

end

mutual

theorem length_rowsFrom (depth : Nat) : ∀ n : ResourceNode, (n.rowsFrom depth).length = n.count
  | .node _ _ _ children => by simp [rowsFrom, count, length_rowsBelow (depth + 1) children]

theorem length_rowsBelow (depth : Nat) :
    ∀ cs : List ResourceNode, (rowsBelow depth cs).length = countAll cs
  | [] => rfl
  | c :: rest => by simp [rowsBelow, countAll, length_rowsFrom depth c, length_rowsBelow depth rest]

end

end ResourceNode

end Inventory

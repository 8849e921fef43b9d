import Inventory.Snapshot.Entity

/-! # Trees of entities

A structure is an entity with structures below it. A relative path leads from the root downwards by kind
and id (`resolve?`), and `located` lists all entities in document order with the paths that lead to them.
-/

namespace Inventory

inductive Structure where
  | node (entity : Entity) (children : List Structure)

namespace Structure

def entity : Structure → Entity
  | .node entity _ => entity

def children : Structure → List Structure
  | .node _ children => children

mutual

def same : Structure → Structure → Bool
  | .node a as, .node b bs => a == b && sameAll as bs

def sameAll : List Structure → List Structure → Bool
  | [], [] => true
  | a :: as, b :: bs => same a b && sameAll as bs
  | _, _ => false

end

mutual

theorem same_iff : ∀ a b : Structure, same a b = true ↔ a = b
  | .node _ as, .node _ bs => by simp [same, sameAll_iff as bs]

theorem sameAll_iff : ∀ as bs : List Structure, sameAll as bs = true ↔ as = bs
  | [], bs => by cases bs <;> simp [sameAll]
  | a :: as, bs => by
    cases bs with
    | nil => simp [sameAll]
    | cons b bs => simp [sameAll, same_iff a b, sameAll_iff as bs]

end

instance : DecidableEq Structure := fun a b => decidable_of_iff _ (same_iff a b)

def child? (s : Structure) (kind : EntityKind) (id : String) : Option Structure :=
  s.children.find? fun c => c.entity.kind == kind && c.entity.id == id

def follow? (s : Structure) (part : List Char) : Option Structure := do
  let segment ← Path.Segment.ofPart? part
  let kind ← EntityKind.ofCode? segment.code
  s.child? kind segment.id

/-- Where a relative path leads; the empty one stays at the root. -/
def resolve? (s : Structure) (path : String) : Option Structure :=
  if path = "" then some s
  else (Path.splitPath path.toList).foldlM follow? s

def extend (path : String) (segment : Path.Segment) : String :=
  if path = "" then segment.render else path ++ "/" ++ segment.render

mutual

/-- The entities in document order, each with its path; `path` leads to the root. -/
def locatedFrom (path : String) : Structure → List (String × Entity)
  | .node entity children => (path, entity) :: locatedBelow path children

def locatedBelow (path : String) : List Structure → List (String × Entity)
  | [] => []
  | .node entity children :: rest =>
    locatedFrom (extend path entity.segment) (.node entity children) ++ locatedBelow path rest

end

def located (s : Structure) : List (String × Entity) :=
  s.locatedFrom ""

def entities (s : Structure) : List Entity :=
  s.located.map Prod.snd

end Structure

end Inventory

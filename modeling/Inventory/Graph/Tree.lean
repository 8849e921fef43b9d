import Inventory.Error
import Inventory.Graph.Basic

/-! # Trees of resources

`buildTree` unfolds the links below a resource into a tree, depth first. An id that stands among its own
ancestors ends the walk, and so does a tree that grows beyond its limits; ids without a resource are passed
over. The walk keeps its own stack. It ends since every step takes up a child, gives back a node, or uses up
one of the nodes allowed (`Walk.decreases_of_running`).
-/

namespace Inventory

structure TreeLimits where
  /-- The most levels, the root being the first. -/
  maxDepth : Nat
  maxNodes : Nat
deriving DecidableEq, Repr

namespace TreeLimits

def unbounded : Nat := UInt64.size - 1

def unlimited : TreeLimits := ⟨unbounded, unbounded⟩

def standard : TreeLimits := ⟨unbounded, 1000000⟩

def wire : TreeLimits := ⟨256, 1000000⟩

end TreeLimits

structure Adjacency where
  resource? : String → Option Resource
  children : String → List String

/-- A resource whose children are being unfolded. -/
structure OpenNode where
  resource : Resource
  /-- The subtrees finished, the last one first. -/
  reversed : List ResourceNode
  todo : List String

namespace OpenNode

def enter (adjacency : Adjacency) (r : Resource) : OpenNode :=
  ⟨r, [], adjacency.children r.id⟩

def close (n : OpenNode) : ResourceNode :=
  .node n.resource.id n.resource.name n.resource.typeId n.reversed.reverse

def work (n : OpenNode) : Nat :=
  n.todo.length + 1

def workAll : List OpenNode → Nat
  | [] => 0
  | n :: rest => n.work + workAll rest

end OpenNode

structure Walk where
  top : OpenNode
  /-- The nodes that lead to the top, the nearest one first. -/
  below : List OpenNode
  depth : Nat
  depth_eq : depth = below.length + 1
  ancestors : List String
  /-- How many nodes were begun, each by asking once for its children. -/
  nodes : Nat
  /-- How many resources were asked for. -/
  lookups : Nat

inductive Walk.Step where
  | running (next : Walk)
  | ended (last : Walk) (result : Except Error ResourceNode)

namespace Walk

def start (adjacency : Adjacency) (root : Resource) : Walk where
  top := .enter adjacency root
  below := []
  depth := 1
  depth_eq := rfl
  ancestors := [root.id]
  nodes := 1
  lookups := 1

/-- The ids from the root to the top. -/
def path (w : Walk) : List String :=
  ((w.top :: w.below).map (·.resource.id)).reverse

def skip (w : Walk) (todo : List String) : Walk :=
  { w with top := { w.top with todo }, lookups := w.lookups + 1 }

def push (adjacency : Adjacency) (w : Walk) (r : Resource) : Walk where
  top := .enter adjacency r
  below := w.top :: w.below
  depth := w.depth + 1
  depth_eq := by simp [w.depth_eq]
  ancestors := if r.id ∈ w.ancestors then w.ancestors else r.id :: w.ancestors
  nodes := w.nodes + 1
  lookups := w.lookups

def stepChild (adjacency : Adjacency) (limits : TreeLimits) (root : String) (w : Walk) (id : String)
    (todo : List String) : Step :=
  if id ∈ w.ancestors then .ended w (.error (.cycleDetected id (w.path ++ [id])))
  else
    let rest := w.skip todo
    match adjacency.resource? id with
    | none => .running rest
    | some r =>
      if limits.maxDepth ≤ w.depth then
        .ended rest (.error (.treeLimitExceeded root "depth" limits.maxDepth))
      else if limits.maxNodes ≤ w.nodes then
        .ended rest (.error (.treeLimitExceeded root "node" limits.maxNodes))
      else .running (rest.push adjacency r)

def stepBack (w : Walk) : Step :=
  match h : w.below with
  | [] => .ended w (.ok w.top.close)
  | parent :: below =>
    .running
      { w with
        top := { parent with reversed := w.top.close :: parent.reversed }
        below
        depth := w.depth - 1
        depth_eq := by simp [w.depth_eq, h]
        ancestors := w.ancestors.erase w.top.resource.id }

def step (adjacency : Adjacency) (limits : TreeLimits) (root : String) (w : Walk) : Step :=
  match w.top.todo with
  | id :: todo => stepChild adjacency limits root w id todo
  | [] => w.stepBack

def work (w : Walk) : Nat :=
  w.top.work + OpenNode.workAll w.below

theorem decreases_of_running {adjacency : Adjacency} {limits : TreeLimits} {root : String}
    {w next : Walk} (h : step adjacency limits root w = .running next) :
    (w.nodes < limits.maxNodes ∧ next.nodes = w.nodes + 1) ∨
      (next.nodes = w.nodes ∧ next.work < w.work) := by
  unfold step at h
  split at h
  · next id todo htodo =>
    simp only [stepChild] at h
    split at h
    · simp at h
    · split at h
      · simp only [Step.running.injEq] at h
        subst h
        right
        simp [skip, work, OpenNode.work, htodo]
      · split at h
        · simp at h
        · split at h
          · simp at h
          · next hnodes =>
            simp only [Step.running.injEq] at h
            subst h
            left
            exact ⟨by omega, rfl⟩
  · next htodo =>
    unfold stepBack at h
    split at h
    · simp at h
    · next parent below hbelow =>
      simp only [Step.running.injEq] at h
      subst h
      right
      simp only [work, OpenNode.work, OpenNode.workAll, htodo, hbelow, List.length_nil, true_and]
      omega

def run (adjacency : Adjacency) (limits : TreeLimits) (root : String) (w : Walk) :
    Walk × Except Error ResourceNode :=
  match h : step adjacency limits root w with
  | .ended last result => (last, result)
  | .running next =>
    have := decreases_of_running h
    run adjacency limits root next
termination_by (limits.maxNodes - w.nodes, w.work)
decreasing_by
  rcases this with ⟨hlt, heq⟩ | ⟨heq, hlt⟩
  · exact .left _ _ (by omega)
  · rw [heq]; exact .right _ hlt

end Walk

structure TreeOutcome where
  result : Except Error (Option ResourceNode)
  lookups : Nat
  expansions : Nat

def buildTree (adjacency : Adjacency) (limits : TreeLimits) (root : String) : TreeOutcome :=
  match adjacency.resource? root with
  | none => ⟨.ok none, 1, 0⟩
  | some r =>
    let (last, result) := (Walk.start adjacency r).run adjacency limits root
    ⟨result.map some, last.lookups, last.nodes⟩

namespace Graph

def adjacency (g : Graph) : Adjacency :=
  ⟨g.resource?, g.childrenOf⟩

def tree? (g : Graph) (limits : TreeLimits) (root : String) : Except Error (Option ResourceNode) :=
  (buildTree g.adjacency limits root).result

end Graph

end Inventory

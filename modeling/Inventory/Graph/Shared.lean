import Inventory.Graph.Batch

/-! # A graph behind a lock

A shared graph is read and written under a lock, each batch as a whole. A writer that breaks off leaves the graph
as it is by then, and leaves the lock poisoned. The next one to come takes a poisoned lock over.
-/

namespace Inventory

structure SharedGraph where
  graph : Graph
  /-- Whether a writer has broken off while it held the lock. -/
  poisoned : Bool

namespace SharedGraph

variable {α : Type}

def ofGraph (g : Graph) : SharedGraph := ⟨g, false⟩

def empty : SharedGraph := ofGraph .empty

/-- What the lock gives out: the graph, as a failure once the lock is poisoned. -/
def lock (s : SharedGraph) : Except Graph Graph :=
  if s.poisoned then .error s.graph else .ok s.graph

def takeOver : Except Graph Graph → Graph
  | .ok g => g
  | .error g => g

def read (s : SharedGraph) (question : Graph → α) : α :=
  question (takeOver s.lock)

/-- Writes to the graph and makes its index anew. The work has no result if it breaks off; then the index stays as
the work leaves it. -/
def writeBatch (s : SharedGraph) (work : Graph → Graph × Option α) : SharedGraph × Option α :=
  match work (takeOver s.lock) with
  | (g, some a) => (⟨g.reindex, s.poisoned⟩, some a)
  | (g, none) => (⟨g, true⟩, none)

def reindex (s : SharedGraph) : SharedGraph :=
  ⟨(takeOver s.lock).reindex, s.poisoned⟩

def commit (s : SharedGraph) (writes : List Write) : SharedGraph :=
  (s.writeBatch fun g => (g.writeAll writes, some ())).1

/-- The shared graph after a batch that breaks off behind its writes. -/
def abort (s : SharedGraph) (writes : List Write) : SharedGraph :=
  (s.writeBatch fun g => (g.writeAll writes, (none : Option Unit))).1

theorem takeOver_lock (s : SharedGraph) : takeOver s.lock = s.graph := by
  rw [lock]
  split <;> rfl

theorem read_eq (s : SharedGraph) (question : Graph → α) : s.read question = question s.graph :=
  congrArg question s.takeOver_lock

theorem graph_reindex (s : SharedGraph) : s.reindex.graph = s.graph.reindex :=
  congrArg Graph.reindex s.takeOver_lock

theorem graph_commit (s : SharedGraph) (writes : List Write) :
    (s.commit writes).graph = s.graph.batch writes :=
  congrArg (fun g : Graph => g.batch writes) s.takeOver_lock

theorem graph_abort (s : SharedGraph) (writes : List Write) :
    (s.abort writes).graph = s.graph.abortedBatch writes :=
  congrArg (fun g : Graph => g.abortedBatch writes) s.takeOver_lock

end SharedGraph

end Inventory

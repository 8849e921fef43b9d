import Inventory.Graph.Shared
import Inventory.Proofs.Graph.Replay
import Mathlib.Data.List.DropRight

/-! # Batches that break off

A batch that breaks off has written what it has written, under the index of before. Nothing is lost by that: an
index is made of the stored records alone (`Graph.SameStores.reindex_eq`), so the next `reindex`, be it that of a
later batch, makes up for the one that is missing (`SharedGraph.abort_recoverable`).
-/

namespace Inventory

def Write.isReindex : Write → Bool
  | .reindex => true
  | _ => false

def upToReindex (writes : List Write) : List Write :=
  writes.rdropWhile (!·.isReindex)

namespace Graph

variable {g other : Graph} {records : List GraphRecord}

structure Recorded (g : Graph) (records : List GraphRecord) : Prop where
  resource? : ∀ id, g.resource? id = lastUnder (records.filterMap GraphRecord.resource?) id
  resourceType? : ∀ id, g.resourceType? id = lastUnder (records.filterMap GraphRecord.resourceType?) id
  metric? : ∀ id, g.metric? id = lastUnder (records.filterMap GraphRecord.metric?) id
  allResourceTypes : g.allResourceTypes = survivors (records.filterMap GraphRecord.resourceType?)
  metricsOf? : ∀ id, g.metricsOf? id =
    (lastUnder (records.filterMap GraphRecord.resource?) id).map fun r =>
      r.metricIds.filterMap (lastUnder (records.filterMap GraphRecord.metric?))

theorem Holds.recorded (h : Holds g records) : Recorded g records := by
  have hresource : g.resource? = lastUnder (records.filterMap GraphRecord.resource?) := by
    funext id
    rw [Graph.resource?, h.resources, Store.get?_replay]
  have hmetric : g.metric? = lastUnder (records.filterMap GraphRecord.metric?) := by
    funext id
    rw [Graph.metric?, h.metrics, Store.get?_replay]
  constructor
  case resource? => exact congrFun hresource
  case resourceType? =>
    intro id
    rw [Graph.resourceType?, h.resourceTypes, Store.get?_replay]
  case metric? => exact congrFun hmetric
  case allResourceTypes => rw [Graph.allResourceTypes, h.resourceTypes, Store.records_replay]
  case metricsOf? =>
    intro id
    rw [Graph.metricsOf?, hresource, ← hmetric]
    rfl

theorem holds_writeAll (writes : List Write) :
    Holds (empty.writeAll writes) (writes.flatMap Write.records) := by
  have h := holds_empty.writeAll writes
  rwa [List.nil_append] at h

theorem writeAll_append (g : Graph) (writes more : List Write) :
    g.writeAll (writes ++ more) = (g.writeAll writes).writeAll more :=
  List.foldl_append

theorem batch_eq (g : Graph) (writes : List Write) : g.batch writes = g.writeAll (writes ++ [.reindex]) := by
  rw [writeAll_append]
  rfl

theorem index_write (g : Graph) {w : Write} (h : w.isReindex = false) : (g.write w).index = g.index := by
  cases w with
  | record r => exact g.index_addRecord r
  | snapshot doc => exact g.index_foldl_addRecord doc.graphRecords
  | reindex => cases h

/-- The index is the one of the last `reindex`, whatever was written behind it. -/
theorem index_writeAll (g : Graph) (writes : List Write) :
    (g.writeAll writes).index = (g.writeAll (upToReindex writes)).index := by
  induction writes using List.reverseRecOn with
  | nil => rfl
  | append_singleton writes w ih =>
    rw [upToReindex]
    cases hw : w.isReindex with
    | true => rw [List.rdropWhile_concat_neg _ _ _ (by simp [hw])]
    | false =>
      rw [List.rdropWhile_concat_pos _ _ _ (by simp [hw]), writeAll_append]
      exact (index_write _ hw).trans ih

/-- The stores are the same, though perhaps not the index. -/
structure SameStores (g other : Graph) : Prop where
  resources : g.resources = other.resources
  resourceTypes : g.resourceTypes = other.resourceTypes
  metrics : g.metrics = other.metrics

theorem sameStores_reindex (g : Graph) : SameStores g g.reindex :=
  ⟨rfl, rfl, rfl⟩

theorem SameStores.reindex_eq (h : SameStores g other) : g.reindex = other.reindex := by
  rw [reindex, reindex, h.resources, h.resourceTypes, h.metrics]

theorem SameStores.addRecord (h : SameStores g other) (record : GraphRecord) :
    SameStores (g.addRecord record) (other.addRecord record) := by
  cases record with
  | resource r => exact ⟨congrArg (·.put r) h.resources, h.resourceTypes, h.metrics⟩
  | resourceType t => exact ⟨h.resources, congrArg (·.put t) h.resourceTypes, h.metrics⟩
  | metric m => exact ⟨h.resources, h.resourceTypes, congrArg (·.put m) h.metrics⟩

theorem SameStores.foldl_addRecord (h : SameStores g other) (records : List GraphRecord) :
    SameStores (records.foldl Graph.addRecord g) (records.foldl Graph.addRecord other) := by
  induction records generalizing g other with
  | nil => exact h
  | cons record rest ih => exact ih (h.addRecord record)

theorem SameStores.write (h : SameStores g other) (w : Write) : SameStores (g.write w) (other.write w) := by
  cases w with
  | record r => exact h.addRecord r
  | snapshot doc => exact h.foldl_addRecord doc.graphRecords
  | reindex => exact ⟨h.resources, h.resourceTypes, h.metrics⟩

theorem SameStores.writeAll (h : SameStores g other) (writes : List Write) :
    SameStores (g.writeAll writes) (other.writeAll writes) := by
  induction writes generalizing g other with
  | nil => exact h
  | cons w rest ih => exact ih (h.write w)

theorem SameStores.batch_eq (h : SameStores g other) (writes : List Write) :
    g.batch writes = other.batch writes :=
  (h.writeAll writes).reindex_eq

end Graph

namespace SharedGraph

open Inventory.Graph

variable {s : SharedGraph} {history : List Write}

/-- The shared graphs that there are, each with all that was written to it, each `reindex` at its place. -/
inductive Reached : SharedGraph → List Write → Prop
  | ofGraph (history : List Write) : Reached (ofGraph (Graph.empty.writeAll history)) history
  | commit {s : SharedGraph} {history : List Write} (writes : List Write) :
    Reached s history → Reached (s.commit writes) (history ++ (writes ++ [.reindex]))
  | abort {s : SharedGraph} {history : List Write} (writes : List Write) :
    Reached s history → Reached (s.abort writes) (history ++ writes)
  | reindex {s : SharedGraph} {history : List Write} :
    Reached s history → Reached s.reindex (history ++ [.reindex])

theorem Reached.graph_eq (h : Reached s history) : s.graph = Graph.empty.writeAll history := by
  induction h with
  | ofGraph history => rfl
  | commit writes _ ih => rw [graph_commit, ih, batch_eq, ← writeAll_append]
  | abort writes _ ih => rw [graph_abort, ih, abortedBatch, ← writeAll_append]
  | reindex _ ih =>
    rw [graph_reindex, ih, writeAll_append]
    rfl

/-- After a batch that broke off the graph is read and written as ever. Look-ups know all that was written, links
and listings are those of the last `reindex`, and the next `reindex` or batch leads where it would have led had
the batch been carried through. -/
theorem abort_recoverable (h : Reached s history) (writes : List Write) :
    (∀ (α : Type) (question : Graph → α),
      (s.abort writes).read question = question (Graph.empty.writeAll (history ++ writes))) ∧
    (s.abort writes).read (Recorded · ((history ++ writes).flatMap Write.records)) ∧
    (s.abort writes).read (·.index) = (Graph.empty.writeAll (upToReindex (history ++ writes))).index ∧
    (∀ (α : Type) (question : Graph → α),
      (s.abort writes).reindex.read question = (s.commit writes).read question) ∧
    ∀ (later : List Write) (α : Type) (question : Graph → α),
      ((s.abort writes).commit later).read question = ((s.commit writes).commit later).read question := by
  have hgraph : (s.abort writes).graph = Graph.empty.writeAll (history ++ writes) :=
    (h.abort writes).graph_eq
  have hcommitted : (s.abort writes).graph.reindex = (s.commit writes).graph := by
    rw [graph_abort, graph_commit]
    rfl
  refine ⟨fun α question => ?_, ?_, ?_, fun α question => ?_, fun later α question => ?_⟩
  · rw [read_eq, hgraph]
  · rw [read_eq, hgraph]
    exact (holds_writeAll _).recorded
  · rw [read_eq, hgraph, index_writeAll]
  · rw [read_eq, read_eq, graph_reindex, hcommitted]
  · have hstores : SameStores (s.abort writes).graph (s.commit writes).graph :=
      hcommitted ▸ sameStores_reindex _
    rw [read_eq, read_eq, graph_commit, graph_commit, hstores.batch_eq]

/-- A tank loses its parent, while a first batch had broken off already. -/
def plumbing : List Write :=
  [.record (.resource (Resource.plain "pump" "Pump" "machine")),
    .record (.resource ((Resource.plain "tank" "Tank" "machine").withParent "pump"))]

theorem abort_recoverable_tank :
    let s := (SharedGraph.empty.commit plumbing).abort [.record (.metric ⟨"flow", "", "", .none, 0, .empty⟩)]
    let moved := Resource.plain "tank" "Tank" "vessel"
    let aborted := s.abort [.record (.resource moved)]
    Reached s (plumbing ++ [.reindex] ++ [.record (.metric ⟨"flow", "", "", .none, 0, .empty⟩)]) ∧
    aborted.poisoned = true ∧
    aborted.read (·.resource? "tank") = some moved ∧
    aborted.read (·.childrenOf "pump") = ["tank"] ∧
    aborted.reindex.read (·.childrenOf "pump") = [] ∧
    aborted.reindex.read (·.resourcesOfType "vessel") = [moved] := by
  intro s moved aborted
  have hreached : Reached s (plumbing ++ [.reindex] ++ [.record (.metric ⟨"flow", "", "", .none, 0, .empty⟩)]) :=
    .abort _ (.commit plumbing (.ofGraph []))
  obtain ⟨hread, -, -, hrecovered, -⟩ := abort_recoverable hreached [.record (.resource moved)]
  refine ⟨hreached, rfl, ?_, ?_, ?_, ?_⟩
  · rw [hread]
    decide +kernel
  · rw [hread]
    decide +kernel
  · rw [hrecovered]
    decide +kernel
  · rw [hrecovered]
    decide +kernel

end SharedGraph

end Inventory

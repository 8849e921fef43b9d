import Inventory.Graph.Batch
import Inventory.Proofs.Repetition

/-! # What a history of writes leaves in the stores

`survivors` reads off a row of records which of them count in the end and in which order. A store into
which the row was put holds them (`Store.records_replay`), and every write of a graph only makes the
rows longer (`Graph.Holds.write`), so a graph holds the survivors of all that was ever written to it. The index
is left as it is by all records (`Graph.index_foldl_addRecord`).
-/

namespace Inventory

section Survivors

variable {α : Type} [HasId α]

def lastUnder (records : List α) (id : String) : Option α :=
  records.reverse.find? fun r => HasId.id r == id

/-- The last record under each id, in the order in which the ids first came. -/
def survivors (records : List α) : List α :=
  (records.map HasId.id).eraseDups.filterMap (lastUnder records)

theorem lastUnder_concat (records : List α) (record : α) (id : String) :
    lastUnder (records ++ [record]) id =
      if id = HasId.id record then some record else lastUnder records id := by
  rw [lastUnder, List.reverse_concat, List.find?_cons]
  by_cases h : id = HasId.id record
  · rw [if_pos h, beq_iff_eq.2 h.symm]
  · rw [if_neg h, beq_false_of_ne (Ne.symm h)]
    rfl

theorem id_of_lastUnder {records : List α} {id : String} {record : α} (h : lastUnder records id = some record) :
    HasId.id record = id := by
  have hid := List.find?_some h
  exact beq_iff_eq.1 hid

theorem mem_of_lastUnder {records : List α} {id : String} {record : α} (h : lastUnder records id = some record) :
    record ∈ records :=
  List.mem_reverse.1 (List.mem_of_find?_eq_some h)

theorem lastUnder_eq_none_iff {records : List α} {id : String} :
    lastUnder records id = none ↔ id ∉ records.map HasId.id := by
  rw [lastUnder, List.find?_eq_none, List.mem_map]
  simp

theorem lastUnder_of_nodup {records : List α} (h : (records.map HasId.id).Nodup) {record : α}
    (hrecord : record ∈ records) : lastUnder records (HasId.id record) = some record := by
  cases hlast : lastUnder records (HasId.id record) with
  | none => exact absurd (List.mem_map_of_mem hrecord) (lastUnder_eq_none_iff.1 hlast)
  | some other => rw [List.inj_on_of_nodup_map h (mem_of_lastUnder hlast) hrecord (id_of_lastUnder hlast)]

theorem lastUnder_eq_some_iff {records : List α} (h : (records.map HasId.id).Nodup) {id : String} {record : α} :
    lastUnder records id = some record ↔ record ∈ records ∧ HasId.id record = id := by
  constructor
  · intro hlast
    exact ⟨mem_of_lastUnder hlast, id_of_lastUnder hlast⟩
  · rintro ⟨hrecord, rfl⟩
    exact lastUnder_of_nodup h hrecord

end Survivors

namespace Store

variable {α : Type} [HasId α]

theorem get?_foldl_put (s : Store α) (records : List α) (id : String) :
    (records.foldl put s).get? id = (lastUnder records id).or (s.get? id) := by
  -- From the back, where the record that counts stands.
  induction records using List.reverseRecOn with
  | nil => exact (Option.none_or).symm
  | append_singleton records record ih =>
    rw [List.foldl_append, List.foldl_cons, List.foldl_nil, get?_put, lastUnder_concat, ih]
    split <;> rfl

/-- An id that is there keeps its place, and the others follow in the order in which they first come. -/
theorem ids_foldl_put (s : Store α) (records : List α) :
    (records.foldl put s).ids = s.ids ++ ((records.map HasId.id).filter (· ∉ s.ids)).eraseDups := by
  induction records using List.reverseRecOn with
  | nil => exact (List.append_nil _).symm
  | append_singleton records record ih =>
    rw [List.foldl_append, List.foldl_cons, List.foldl_nil, ids_put, ih, List.map_append, List.filter_append,
      List.map_singleton, List.filter_cons, List.filter_nil]
    by_cases hold : HasId.id record ∈ s.ids
    · rw [if_pos (List.mem_append_left _ hold), if_neg (by simpa using hold), List.append_nil]
    · rw [if_pos (decide_eq_true hold), eraseDups_concat]
      by_cases hnew : HasId.id record ∈ ((records.map HasId.id).filter (· ∉ s.ids)).eraseDups
      · rw [if_pos (List.mem_append_right _ hnew), if_pos hnew]
      · rw [if_neg (List.not_mem_append hold hnew), if_neg hnew, List.append_assoc]

def replay (records : List α) : Store α :=
  records.foldl put empty

theorem replay_append (records more : List α) : replay (records ++ more) = more.foldl put (replay records) :=
  List.foldl_append

theorem get?_replay (records : List α) (id : String) :
    (replay records).get? id = lastUnder records id := by
  rw [replay, get?_foldl_put, get?_empty, Option.or_none]

theorem ids_replay (records : List α) : (replay records).ids = (records.map HasId.id).eraseDups := by
  have hempty : (empty : Store α).ids = [] := rfl
  have hall : (records.map HasId.id).filter (fun id => decide (id ∉ ([] : List String))) =
      records.map HasId.id := List.filter_eq_self.2 fun id _ => by simp
  rw [replay, ids_foldl_put, hempty, hall, List.nil_append]

theorem records_replay (records : List α) : (replay records).records = survivors records := by
  have hget : (replay records).get? = lastUnder records := funext (get?_replay records)
  rw [Store.records, getAll, ids_replay, hget, survivors]

end Store

namespace GraphRecord

def resource? : GraphRecord → Option Resource
  | .resource r => some r
  | _ => none

def resourceType? : GraphRecord → Option ResourceType
  | .resourceType t => some t
  | _ => none

def metric? : GraphRecord → Option Metric
  | .metric m => some m
  | _ => none

end GraphRecord

def Write.records : Write → List GraphRecord
  | .record r => [r]
  | .snapshot doc => doc.graphRecords
  | .reindex => []

namespace Graph

structure Holds (g : Graph) (records : List GraphRecord) : Prop where
  resources : g.resources = .replay (records.filterMap GraphRecord.resource?)
  resourceTypes : g.resourceTypes = .replay (records.filterMap GraphRecord.resourceType?)
  metrics : g.metrics = .replay (records.filterMap GraphRecord.metric?)

variable {g : Graph} {records : List GraphRecord}

theorem resources_foldl_addRecord (g : Graph) (records : List GraphRecord) :
    (records.foldl addRecord g).resources = (records.filterMap GraphRecord.resource?).foldl .put g.resources := by
  induction records generalizing g with
  | nil => rfl
  | cons record rest ih => cases record <;> exact ih _

theorem resourceTypes_foldl_addRecord (g : Graph) (records : List GraphRecord) :
    (records.foldl addRecord g).resourceTypes =
      (records.filterMap GraphRecord.resourceType?).foldl .put g.resourceTypes := by
  induction records generalizing g with
  | nil => rfl
  | cons record rest ih => cases record <;> exact ih _

theorem metrics_foldl_addRecord (g : Graph) (records : List GraphRecord) :
    (records.foldl addRecord g).metrics = (records.filterMap GraphRecord.metric?).foldl .put g.metrics := by
  induction records generalizing g with
  | nil => rfl
  | cons record rest ih => cases record <;> exact ih _

theorem index_addRecord (g : Graph) (record : GraphRecord) : (g.addRecord record).index = g.index := by
  cases record <;> rfl

theorem index_foldl_addRecord (g : Graph) (records : List GraphRecord) :
    (records.foldl addRecord g).index = g.index := by
  induction records generalizing g with
  | nil => rfl
  | cons record rest ih => exact (ih _).trans (g.index_addRecord record)

theorem pendingWrites_foldl_addRecord (g : Graph) (records : List GraphRecord) :
    (records.foldl addRecord g).pendingWrites = g.pendingWrites + records.length := by
  induction records generalizing g with
  | nil => rfl
  | cons record rest ih =>
    have hone : (g.addRecord record).pendingWrites = g.pendingWrites + 1 := by cases record <;> rfl
    rw [List.foldl_cons, ih, hone, List.length_cons]
    omega

theorem holds_empty : Holds empty [] :=
  ⟨rfl, rfl, rfl⟩

theorem Holds.foldl_addRecord (h : Holds g records) (more : List GraphRecord) :
    Holds (more.foldl addRecord g) (records ++ more) where
  resources := by rw [resources_foldl_addRecord, h.resources, List.filterMap_append, Store.replay_append]
  resourceTypes := by
    rw [resourceTypes_foldl_addRecord, h.resourceTypes, List.filterMap_append, Store.replay_append]
  metrics := by rw [metrics_foldl_addRecord, h.metrics, List.filterMap_append, Store.replay_append]

theorem Holds.reindex (h : Holds g records) : Holds g.reindex records :=
  ⟨h.resources, h.resourceTypes, h.metrics⟩

theorem Holds.write (h : Holds g records) (w : Write) : Holds (g.write w) (records ++ w.records) := by
  cases w with
  | record r => exact h.foldl_addRecord [r]
  | snapshot doc => exact h.foldl_addRecord doc.graphRecords
  | reindex =>
    rw [Write.records, List.append_nil]
    exact h.reindex

theorem Holds.writeAll (h : Holds g records) (writes : List Write) :
    Holds (g.writeAll writes) (records ++ writes.flatMap Write.records) := by
  induction writes generalizing g records with
  | nil => rwa [List.flatMap_nil, List.append_nil]
  | cons w rest ih =>
    have hrest := ih (h.write w)
    rwa [List.append_assoc, ← List.flatMap_cons] at hrest

theorem holds_batch (writes : List Write) :
    Holds (empty.batch writes) (writes.flatMap Write.records) := by
  have h := holds_empty.writeAll writes
  rw [List.nil_append] at h
  exact h.reindex

end Graph

end Inventory

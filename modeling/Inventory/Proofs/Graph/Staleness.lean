import Inventory.Proofs.Graph.Derived
import Inventory.Proofs.Graph.Recovery
import Mathlib.Data.Finset.Card

/-! # Reading between two indexings

Listings and links are those of the last `reindex`, while look-ups see every write at once. The two do not fall
apart: an id that was indexed stays stored, whatever is written behind it (`Graph.Stocked`), so no listing loses
an id, and it shows under each id what was written last (`Graph.lags_writeAll`).
-/

namespace Inventory

def sinceReindex (writes : List Write) : List Write :=
  writes.rtakeWhile (!·.isReindex)

namespace Store

variable {α : Type} [HasId α]

theorem isSome_get?_put {s : Store α} {id : String} (h : (s.get? id).isSome) (record : α) :
    ((s.put record).get? id).isSome := by
  rw [get?_put]
  split
  · rfl
  · exact h

def idCount (records : List α) : Nat :=
  (records.map HasId.id).toFinset.card

theorem size_replay (records : List α) : (replay records).size = idCount records := by
  have hsize : (replay records).size = (replay records).ids.length := List.length_reverse.symm
  have hsame : (replay records).ids.toFinset = (records.map HasId.id).toFinset := by
    ext id
    rw [ids_replay, List.mem_toFinset, List.mem_toFinset, List.mem_eraseDups]
  rw [hsize, ← List.toFinset_card_of_nodup (nodup_ids _), hsame, idCount]

end Store

namespace Graph

variable {g : Graph}

theorem writeAll_induction {P : Graph → Prop} (record : ∀ g r, P g → P (g.addRecord r))
    (reindex : ∀ g, P g → P g.reindex) (h : P g) (writes : List Write) : P (g.writeAll writes) := by
  have hrecords : ∀ (records : List GraphRecord) (g : Graph), P g → P (records.foldl addRecord g) := by
    intro records
    induction records with
    | nil => exact fun _ h => h
    | cons r rest ih => exact fun g h => ih _ (record g r h)
  induction writes generalizing g with
  | nil => exact h
  | cons w rest ih =>
    apply ih
    cases w with
    | record r => exact record g r h
    | snapshot doc => exact hrecords doc.graphRecords g h
    | reindex => exact reindex g h

structure Stocked (g : Graph) : Prop where
  topLevel : ∀ id ∈ g.index.topLevel, (g.resource? id).isSome
  byType : ∀ typeId, ∀ id ∈ g.index.byType.idsOf typeId, (g.resource? id).isSome

theorem stocked_empty : Stocked empty where
  topLevel := List.forall_mem_nil _
  byType typeId id hid := by
    have hnone : empty.index.byType.idsOf typeId = [] := Std.TreeMap.getD_emptyc
    rw [hnone] at hid
    cases hid

theorem stocked_reindex (g : Graph) : g.reindex.Stocked := by
  have hstored : ∀ r ∈ g.resources.records, (g.reindex.resource? r.id).isSome := by
    intro r hr
    exact Option.isSome_of_eq_some (g.resources.get?_id_of_mem hr)
  constructor
  case topLevel =>
    intro id hid
    obtain ⟨r, hr, rfl⟩ := List.mem_map.1 hid
    exact hstored r (List.mem_of_mem_filter hr)
  case byType =>
    intro typeId id hid
    have hpairs : id ∈ (Links.ofPairs (g.resources.records.map fun r => (r.typeId, r.id))).idsOf typeId := hid
    rw [Links.idsOf_ofPairs, List.filter_map, List.map_map] at hpairs
    obtain ⟨r, hr, rfl⟩ := List.mem_map.1 hpairs
    exact hstored r (List.mem_of_mem_filter hr)

theorem Stocked.addRecord (h : g.Stocked) (record : GraphRecord) : (g.addRecord record).Stocked := by
  have hkept : ∀ id, (g.resource? id).isSome → ((g.addRecord record).resource? id).isSome := by
    intro id hid
    cases record with
    | resource r => exact Store.isSome_get?_put hid r
    | resourceType t => exact hid
    | metric m => exact hid
  constructor
  case topLevel =>
    intro id hid
    rw [index_addRecord] at hid
    exact hkept id (h.topLevel id hid)
  case byType =>
    intro typeId id hid
    rw [index_addRecord] at hid
    exact hkept id (h.byType typeId id hid)

theorem Stocked.writeAll (h : g.Stocked) (writes : List Write) : (g.writeAll writes).Stocked :=
  writeAll_induction (fun _ r h => h.addRecord r) (fun g _ => g.stocked_reindex) h writes

theorem Stocked.map_id_topResources (h : g.Stocked) : g.topResources.map (·.id) = g.index.topLevel :=
  Store.map_id_getAll h.topLevel

theorem Stocked.map_id_resourcesOfType (h : g.Stocked) (typeId : String) :
    (g.resourcesOfType typeId).map (·.id) = g.index.byType.idsOf typeId :=
  Store.map_id_getAll (h.byType typeId)

theorem pendingWrites_write (g : Graph) {w : Write} (h : w.isReindex = false) :
    (g.write w).pendingWrites = g.pendingWrites + w.records.length := by
  cases w with
  | record r => exact g.pendingWrites_foldl_addRecord [r]
  | snapshot doc => exact g.pendingWrites_foldl_addRecord doc.graphRecords
  | reindex => cases h

theorem pendingWrites_writeAll (writes : List Write) :
    (empty.writeAll writes).pendingWrites = ((sinceReindex writes).flatMap Write.records).length := by
  induction writes using List.reverseRecOn with
  | nil => rfl
  | append_singleton writes w ih =>
    rw [writeAll_append, sinceReindex]
    cases hw : w.isReindex with
    | true =>
      rw [List.rtakeWhile_concat_neg _ _ _ (by simp [hw])]
      cases w with
      | reindex => rfl
      | record r => cases hw
      | snapshot doc => cases hw
    | false =>
      rw [List.rtakeWhile_concat_pos _ _ _ (by simp [hw]), List.flatMap_append, List.length_append,
        List.flatMap_singleton]
      exact (pendingWrites_write _ hw).trans (congrArg (· + w.records.length) ih)

/-- What a graph answers whose index was made when it was another graph, by the records written to it until
then and since. -/
structure Lags (g indexed : Graph) (records : List GraphRecord) : Prop where
  childrenOf : ∀ id, g.childrenOf id = indexed.childrenOf id
  parentsOf : ∀ id, g.parentsOf id = indexed.parentsOf id
  topResources : g.topResources.map (·.id) = indexed.topResources.map (·.id)
  resourcesOfType : ∀ typeId,
    (g.resourcesOfType typeId).map (·.id) = (indexed.resourcesOfType typeId).map (·.id)
  /-- No id of the index is passed over. -/
  topLevel : g.topResources.map (·.id) = g.index.topLevel
  byType : ∀ typeId, (g.resourcesOfType typeId).map (·.id) = g.index.byType.idsOf typeId
  latest : ∀ r, (r ∈ g.topResources ∨ ∃ typeId, r ∈ g.resourcesOfType typeId) →
    lastUnder (records.filterMap GraphRecord.resource?) r.id = some r
  recorded : g.Recorded records

structure Unlisted (g : Graph) : Prop where
  topResources : g.topResources = []
  resourcesOfType : ∀ typeId, g.resourcesOfType typeId = []
  childrenOf : ∀ id, g.childrenOf id = []
  parentsOf : ∀ id, g.parentsOf id = []

theorem unlisted_of_index (h : g.index = .empty) : g.Unlisted := by
  have hnone : ∀ id, Links.idsOf ∅ id = [] := fun _ => Std.TreeMap.getD_emptyc
  constructor
  case topResources =>
    rw [Graph.topResources, h]
    rfl
  case resourcesOfType =>
    intro typeId
    rw [Graph.resourcesOfType, h]
    exact congrArg g.resources.getAll (hnone typeId)
  case childrenOf =>
    intro id
    rw [Graph.childrenOf, h]
    exact hnone id
  case parentsOf =>
    intro id
    rw [Graph.parentsOf, h]
    exact hnone id

theorem unlisted_writeAll {writes : List Write} (h : ∀ w ∈ writes, w.isReindex = false) :
    (empty.writeAll writes).Unlisted := by
  have hupTo : upToReindex writes = [] := List.rdropWhile_eq_nil_iff.2 fun w hw => by simp [h w hw]
  apply unlisted_of_index
  rw [index_writeAll, hupTo]
  rfl

theorem Stocked.lags {indexed : Graph} {records : List GraphRecord} (h : g.Stocked) (hindexed : indexed.Stocked)
    (hindex : g.index = indexed.index) (hrecorded : g.Recorded records) : Lags g indexed records := by
  constructor
  case childrenOf =>
    intro id
    rw [Graph.childrenOf, hindex]
    rfl
  case parentsOf =>
    intro id
    rw [Graph.parentsOf, hindex]
    rfl
  case topResources => rw [h.map_id_topResources, hindexed.map_id_topResources, hindex]
  case resourcesOfType =>
    intro typeId
    rw [h.map_id_resourcesOfType, hindexed.map_id_resourcesOfType, hindex]
  case topLevel => exact h.map_id_topResources
  case byType => exact h.map_id_resourcesOfType
  case latest =>
    intro r hr
    rw [← hrecorded.resource?]
    rcases hr with hr | ⟨typeId, hr⟩
    · exact g.resources.get?_id_of_mem_getAll hr
    · exact g.resources.get?_id_of_mem_getAll hr
  case recorded => exact hrecorded

theorem stats_writeAll (writes : List Write) :
    (empty.writeAll writes).stats =
      { resources := Store.idCount ((writes.flatMap Write.records).filterMap GraphRecord.resource?)
        resourceTypes := Store.idCount ((writes.flatMap Write.records).filterMap GraphRecord.resourceType?)
        metrics := Store.idCount ((writes.flatMap Write.records).filterMap GraphRecord.metric?)
        topLevel := (empty.writeAll (upToReindex writes)).topResources.length
        pendingWrites := ((sinceReindex writes).flatMap Write.records).length } := by
  have hholds := holds_writeAll writes
  have htop : (empty.writeAll writes).index.topLevel.length =
      (empty.writeAll (upToReindex writes)).topResources.length := by
    rw [index_writeAll, ← (stocked_empty.writeAll _).map_id_topResources, List.length_map]
  rw [stats, hholds.resources, hholds.resourceTypes, hholds.metrics, Store.size_replay, Store.size_replay,
    Store.size_replay, pendingWrites_writeAll, htop]

/-- Listings and links lag behind the look-ups by what was written since the last `reindex`. They name what they
named then, and nothing if there was none, and that many writes are told to be pending. -/
theorem lags_writeAll (writes : List Write) :
    Lags (empty.writeAll writes) (empty.writeAll (upToReindex writes)) (writes.flatMap Write.records) ∧
    ((∀ w ∈ writes, w.isReindex = false) → (empty.writeAll writes).Unlisted) ∧
    (empty.writeAll writes).stats =
      { resources := Store.idCount ((writes.flatMap Write.records).filterMap GraphRecord.resource?)
        resourceTypes := Store.idCount ((writes.flatMap Write.records).filterMap GraphRecord.resourceType?)
        metrics := Store.idCount ((writes.flatMap Write.records).filterMap GraphRecord.metric?)
        topLevel := (empty.writeAll (upToReindex writes)).topResources.length
        pendingWrites := ((sinceReindex writes).flatMap Write.records).length } ∧
    ((empty.writeAll writes).isDirty = true ↔ 0 < ((sinceReindex writes).flatMap Write.records).length) := by
  refine ⟨?_, unlisted_writeAll, stats_writeAll writes, ?_⟩
  · exact (stocked_empty.writeAll _).lags (stocked_empty.writeAll _) (empty.index_writeAll writes)
      (holds_writeAll writes).recorded
  · rw [isDirty, decide_eq_true_eq, pendingWrites_writeAll]

/-- Behind the `reindex` the tank is made a vessel without a parent, and a valve comes. -/
def replumbing : List Write :=
  SharedGraph.plumbing ++ [.reindex, .record (.resource (Resource.plain "tank" "Tank" "vessel")),
    .record (.resource (Resource.plain "valve" "Valve" "machine"))]

theorem lags_writeAll_replumbing :
    (empty.writeAll SharedGraph.plumbing).Unlisted ∧
    (empty.writeAll replumbing).childrenOf "pump" = ["tank"] ∧
    (empty.writeAll replumbing).resourcesOfType "machine" =
      [Resource.plain "pump" "Pump" "machine", Resource.plain "tank" "Tank" "vessel"] ∧
    lastUnder ((replumbing.flatMap Write.records).filterMap GraphRecord.resource?) "tank" =
      some (Resource.plain "tank" "Tank" "vessel") ∧
    (empty.writeAll replumbing).stats = ⟨3, 0, 0, 1, 2⟩ ∧ (empty.writeAll replumbing).isDirty = true := by
  obtain ⟨hlags, -, hstats, hdirty⟩ := lags_writeAll replumbing
  have hmachines : (empty.writeAll replumbing).resourcesOfType "machine" =
      [Resource.plain "pump" "Pump" "machine", Resource.plain "tank" "Tank" "vessel"] := by decide +kernel
  refine ⟨(lags_writeAll SharedGraph.plumbing).2.1 (by decide), ?_, hmachines, ?_, ?_, hdirty.2 (by decide +kernel)⟩
  · rw [hlags.childrenOf]
    decide +kernel
  · refine hlags.latest (Resource.plain "tank" "Tank" "vessel") (.inr ⟨"machine", ?_⟩)
    rw [hmachines]
    exact List.mem_cons_of_mem _ List.mem_cons_self
  · rw [hstats]
    decide +kernel

end Graph

end Inventory

import Inventory.Proofs.Graph.Loading
import Mathlib.Data.List.Forall2

/-! # The metrics of a loaded document

A metric is stored apart from the resource that has it, and its unit and interval come from a type that may stand
anywhere in the document. Where the ids of resources and those of metrics are their own, a resource gets back the
metrics below it, in order and each as the document has it (`Graph.metricsOf?_load`).
-/

namespace Inventory

/-- Unit and interval of the last type of metrics with an id, or those that count where there is none. -/
inductive Measured (entities : List Entity) (typeId : String) : MetricUnit × UInt64 → Prop
  | last {before behind : List Entity} {name : String} {kind : DataKind} {unit : MetricUnit} {interval : UInt64}
      {properties : Properties} :
      entities = before ++ .metricType typeId name kind unit interval properties :: behind →
      (∀ other ∈ behind, other.kind = .metricType → other.id ≠ typeId) → Measured entities typeId (unit, interval)
  | unknown : (∀ other ∈ entities, other.kind = .metricType → other.id ≠ typeId) →
      Measured entities typeId (.none, 0)

theorem Measured.concat {entities : List Entity} {typeId : String} {measure : MetricUnit × UInt64} {entity : Entity}
    (h : Measured entities typeId measure) (hother : entity.kind = .metricType → entity.id ≠ typeId) :
    Measured (entities ++ [entity]) typeId measure := by
  cases h with
  | last hsplit hbehind =>
    refine .last (by rw [hsplit, List.append_assoc, List.cons_append]) ?_
    exact List.forall_mem_append.2 ⟨hbehind, List.forall_mem_singleton.2 hother⟩
  | unknown hnone => exact .unknown (List.forall_mem_append.2 ⟨hnone, List.forall_mem_singleton.2 hother⟩)

/-- A look-up from the back finds the last type. -/
theorem measured_lookup (entities : List Entity) (typeId : String) :
    Measured entities typeId (((entities.filterMap (·.measure?)).reverse.lookup typeId).getD (.none, 0)) := by
  induction entities using List.reverseRecOn with
  | nil => exact .unknown (List.forall_mem_nil _)
  | append_singleton entities entity ih =>
    rw [List.filterMap_append, List.reverse_append]
    cases entity with
    | metricType id name kind unit interval properties =>
      have hfound : [Entity.metricType id name kind unit interval properties].filterMap (·.measure?) =
          [(id, unit, interval)] := rfl
      rw [hfound, List.reverse_singleton, List.singleton_append, List.lookup_cons]
      by_cases hid : typeId = id
      · rw [hid, beq_self_eq_true]
        exact .last rfl (List.forall_mem_nil _)
      · rw [beq_false_of_ne hid]
        exact ih.concat fun _ => Ne.symm hid
    | resourceType | resource | metric => exact ih.concat nofun

structure Depicts (doc : Document) (s : Structure) (m : Metric) : Prop where
  entity : ∃ typePath, s.entity = .metric m.id m.displayName typePath m.properties ∧
    m.name = (Path.lastId? typePath).getD ""
  measured : Measured doc.tree.entities m.name (m.unit, m.collectionInterval)

namespace Structure

def metrics (s : Structure) : List Structure :=
  s.children.filter (·.entity.kind == .metric)

theorem depicts_toMetric {doc : Document} {s : Structure} (h : s.entity.kind = .metric) :
    Depicts doc s (s.toMetric doc.measureOf) where
  entity := by
    rcases s with ⟨_ | _ | _ | ⟨id, name, typePath, properties⟩, children⟩
    case metric => exact ⟨typePath, rfl, rfl⟩
    all_goals cases h
  measured := measured_lookup doc.tree.entities _

end Structure

namespace Graph

variable {doc : Document} {above : List Structure} {s r : Structure}

theorem resource?_load (h : (doc.tree.idsOf .resource).Nodup) (hmem : (above, s) ∈ doc.tree.rowsOf .resource) :
    (empty.load doc).1.resource? s.entity.id = some (s.toResource (Structure.owner? above)) := by
  have hlast := lastUnder_of_nodup (doc.map_id_resourceRecords ▸ h)
    (List.mem_map_of_mem (f := fun row => row.2.toResource (Structure.owner? row.1)) hmem)
  rw [resource?, resources_load, Store.get?_foldl_put]
  exact congrArg (Option.or · _) hlast

theorem metric?_load (h : (doc.tree.idsOf .metric).Nodup) (hmem : (above, s) ∈ doc.tree.rowsOf .metric) :
    (empty.load doc).1.metric? s.entity.id = some (s.toMetric doc.measureOf) := by
  have hlast := lastUnder_of_nodup (doc.map_id_metricRecords ▸ h)
    (List.mem_map_of_mem (f := fun row => row.2.toMetric doc.measureOf) hmem)
  rw [metric?, metrics_load, Store.get?_foldl_put]
  exact congrArg (Option.or · _) hlast

theorem getAll_metrics (h : (doc.tree.idsOf .metric).Nodup) (hmem : (above, r) ∈ doc.tree.lineage) :
    (empty.load doc).1.metrics.getAll (r.metrics.map (·.entity.id)) = r.metrics.map (·.toMetric doc.measureOf) := by
  rw [Store.getAll, List.filterMap_map, ← List.filterMap_eq_map]
  refine List.filterMap_congr fun s hs => ?_
  obtain ⟨hchild, hkind⟩ := List.mem_filter.1 hs
  exact metric?_load h (List.mem_filter.2 ⟨Structure.child_mem_lineageUnder hmem hchild, hkind⟩)

/-- A resource of a loaded document has just the metrics directly below it, in order, each with the name, the type and
the properties that the document gives and with the unit and the interval of its type. -/
theorem metricsOf?_load (hresources : (doc.tree.idsOf .resource).Nodup) (hmetrics : (doc.tree.idsOf .metric).Nodup) :
    ∀ r ∈ doc.tree.resources, ∃ metrics, (empty.load doc).1.metricsOf? r.entity.id = some metrics ∧
      List.Forall₂ (Depicts doc) r.metrics metrics := by
  intro r hr
  obtain ⟨hresource, above, hmem⟩ := Structure.mem_resources_iff_lineage.1 hr
  refine ⟨r.metrics.map (·.toMetric doc.measureOf), ?_, ?_⟩
  · rw [metricsOf?, resource?_load hresources (List.mem_filter.2 ⟨hmem, hresource⟩), Option.map_some]
    exact congrArg some (getAll_metrics hmetrics hmem)
  · rw [List.forall₂_map_right_iff, List.forall₂_same]
    intro s hs
    exact Structure.depicts_toMetric (beq_iff_eq.1 (List.mem_filter.1 hs).2)

/-- A works with a metric before its type, which comes twice and has a slash in its id, with one of an unknown type and
with one that names no type. -/
def works : Document :=
  .bare (.node (.resource "works" "" none .empty)
    [.node (.metric "flow" "Flow" "/f;f/mt;a\\/b" .empty)
      [.node (.metricType "a/b" "" .gauge .bytes 10 .empty) []],
     .node (.resource "hall" "" none .empty) [.node (.metricType "a/b" "" .gauge .perMinute 30 .empty) []],
     .node (.metric "heat" "Heat" "kelvin" .empty) [],
     .node (.metric "idle" "" "/" .empty) []])

theorem metricsOf?_load_works :
    (works.tree.idsOf .resource).Nodup ∧ (works.tree.idsOf .metric).Nodup ∧ works.tree ∈ works.tree.resources ∧
    ∃ metrics, (empty.load works).1.metricsOf? "works" = some metrics ∧
      List.Forall₂ (Depicts works) works.tree.metrics metrics ∧
      metrics = [⟨"flow", "a/b", "Flow", .perMinute, 30, .empty⟩, ⟨"heat", "kelvin", "Heat", .none, 0, .empty⟩,
        ⟨"idle", "", "", .none, 0, .empty⟩] := by
  have hresources : (works.tree.idsOf .resource).Nodup := by decide +kernel
  have hmetrics : (works.tree.idsOf .metric).Nodup := by decide +kernel
  have hroot : works.tree ∈ works.tree.resources := Structure.self_mem_resources rfl
  obtain ⟨metrics, hlisted, hdepicts⟩ := metricsOf?_load hresources hmetrics works.tree hroot
  have hvalue : (empty.load works).1.metricsOf? works.tree.entity.id =
      some [⟨"flow", "a/b", "Flow", .perMinute, 30, .empty⟩, ⟨"heat", "kelvin", "Heat", .none, 0, .empty⟩,
        ⟨"idle", "", "", .none, 0, .empty⟩] := by decide +kernel
  exact ⟨hresources, hmetrics, hroot, metrics, hlisted, hdepicts, Option.some.inj (hlisted.symm.trans hvalue)⟩

end Graph

end Inventory

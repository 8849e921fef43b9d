import Inventory.Proofs.Graph.Hierarchy
import Inventory.Proofs.Snapshot.Indices

/-! # The resources of a type, asked twice

A document finds the resources of a type by the paths in its index, a graph by the records it was loaded with.
Both go back to the nodes of the structure in document order, so they name the same resources in the same
order (`resourcesOfType_ofStructure`). Only the empty type is left out: a graph has it for resources without
a type, a document does not list those.
-/

namespace Inventory

variable {typeId : String}

namespace Structure

theorem beq_typeId_toResource {s : Structure} (hresource : s.isResource) (owner : Option String)
    (h : typeId ≠ "") : ((s.toResource owner).typeId == typeId) = s.entity.isOfType .resource typeId := by
  have htype : (s.toResource owner).typeId = (s.entity.typePath?.bind Path.lastId?).getD "" := by
    rw [← s.entity.typeId?_eq]
    rfl
  rw [Entity.isOfType, beq_iff_eq.2 (beq_iff_eq.1 hresource), Bool.true_and, htype, Bool.eq_iff_iff,
    beq_iff_eq, beq_iff_eq]
  cases s.entity.typePath?.bind Path.lastId? with
  | none => exact iff_of_false (Ne.symm h) (Option.some_ne_none typeId).symm
  | some own => rw [Option.getD_some, Option.some.injEq]

end Structure

namespace Graph

theorem resourcesOfType_loaded (doc : Document) (hids : (doc.tree.resources.map (·.entity.id)).Nodup)
    (h : typeId ≠ "") :
    ((loaded doc).resourcesOfType typeId).map (·.id) =
      ((doc.tree.nodes.map (·.entity)).filter (·.isOfType .resource typeId)).map (·.id) := by
  have hrecords : ((doc.graphRecords.filterMap GraphRecord.resource?).map HasId.id).Nodup := by
    rwa [map_id_loaded]
  rw [(derived_loaded doc).resourcesOfType, survivors_of_nodup hrecords, doc.resource?_graphRecords,
    doc.resourceRecords_eq, Structure.nodes, List.map_map, List.filter_map, List.filter_map, List.map_map,
    List.map_map, List.filter_filter]
  apply congrArg
  apply List.filter_congr
  rintro ⟨above, s⟩ -
  rw [Function.comp_apply, Function.comp_apply, Bool.eq_iff_iff, Bool.and_eq_true]
  constructor
  · rintro ⟨htype, hresource⟩
    rwa [Structure.beq_typeId_toResource hresource _ h] at htype
  · intro htype
    have hresource : s.isResource := beq_iff_eq.2 (Entity.kind_of_isOfType htype)
    rw [Structure.beq_typeId_toResource hresource _ h]
    exact ⟨htype, hresource⟩

end Graph

namespace Document

/-- The index of a document and that of the graph it is loaded into list the same resources of a type. -/
theorem resourcesOfType_ofStructure {tree : Structure} (haddressed : tree.Addressed)
    (hids : (tree.resources.map (·.entity.id)).Nodup) (h : typeId ≠ "") :
    ((Graph.loaded (ofStructure tree)).resourcesOfType typeId).map (·.id) =
      ((ofStructure tree).resourcesOfType typeId).map (·.id) := by
  have hlisted : (ofStructure tree).resourcesOfType typeId =
      (tree.nodes.map (·.entity)).filter (·.isOfType .resource typeId) :=
    filterMap_paths_indexOf haddressed .resource typeId
  have hrecorded := Graph.resourcesOfType_loaded (ofStructure tree) hids h
  rw [hlisted, hrecorded]
  rfl

theorem resourcesOfType_ofStructure_rack :
    rack.Addressed ∧ (rack.resources.map (·.entity.id)).Nodup ∧ "blade" ≠ "" ∧
    ((Graph.loaded (ofStructure rack)).resourcesOfType "blade").map (·.id) = ["a/r;b", "a"] ∧
    ((ofStructure rack).resourcesOfType "blade").map (·.id) = ["a/r;b", "a"] := by
  have haddressed : rack.Addressed := ⟨by decide +kernel, by decide +kernel⟩
  have hids : (rack.resources.map (·.entity.id)).Nodup := by decide +kernel
  have hblade : "blade" ≠ "" := by decide
  have hagree := resourcesOfType_ofStructure haddressed hids hblade
  have hlisted : ((ofStructure rack).resourcesOfType "blade").map (·.id) = ["a/r;b", "a"] := by decide +kernel
  exact ⟨haddressed, hids, hblade, hagree.trans hlisted, hlisted⟩

end Document

end Inventory

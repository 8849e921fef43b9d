import Inventory.Proofs.Snapshot.Trails
import Inventory.Snapshot.Document

/-! # The indices of a document

The indices that a structure implies list just the entities of each type, in document order, and every
path in them leads to its entity. `Document.paths_note` says what one entity adds to an index.
-/

namespace Inventory

theorem SortedMap.get?_of_mem {α : Type} {m : SortedMap α} {key : String} {value : α}
    (h : (key, value) ∈ m.entries) : m.get? key = some value := by
  obtain ⟨before, after, hsplit⟩ := List.append_of_mem h
  have hascending := m.ascending
  rw [Ascending, hsplit, List.map_append, List.pairwise_append] at hascending
  refine List.lookup_eq_some_iff.2 ⟨before, after, hsplit, ?_⟩
  intro p hp
  have hlt := hascending.2.2 p.1 (List.mem_map_of_mem hp) key List.mem_cons_self
  exact bne_iff_ne.2 (String.ne_of_lt hlt).symm

namespace TypeIndex

def paths (index : TypeIndex) (typeId : String) : List String :=
  (index.get? typeId).getD []

theorem exists_of_mem_values {index : TypeIndex} {list : List String} (h : list ∈ index.values) :
    ∃ typeId, list = index.paths typeId := by
  obtain ⟨⟨typeId, _⟩, hentry, rfl⟩ := List.mem_map.1 h
  refine ⟨typeId, ?_⟩
  rw [paths, SortedMap.get?_of_mem hentry, Option.getD_some]

theorem paths_add {index : TypeIndex} {typeId path : String} (h : path ∉ index.paths typeId)
    (other : String) :
    (index.add typeId path).paths other =
      index.paths other ++ if typeId = other then [path] else [] := by
  rw [paths, add, SortedMap.alter, SortedMap.get?_insert]
  by_cases heq : other = typeId
  · subst heq
    rw [if_pos rfl, if_pos rfl]
    exact if_neg h
  · rw [if_neg heq, if_neg (Ne.symm heq), List.append_nil, paths]

end TypeIndex

namespace Entity

def typePath? : Entity → Option String
  | .resource _ _ typePath _ => typePath
  | .metric _ _ typePath _ => some typePath
  | _ => none

theorem typeId?_eq (entity : Entity) : entity.typeId? = entity.typePath?.bind Path.lastId? := by
  cases entity with
  | resource _ _ typePath _ => cases typePath <;> rfl
  | _ => rfl

def isOfType (kind : EntityKind) (typeId : String) (entity : Entity) : Bool :=
  entity.kind == kind && entity.typePath?.bind Path.lastId? == some typeId

theorem kind_of_isOfType {kind : EntityKind} {typeId : String} {entity : Entity}
    (h : entity.isOfType kind typeId) : entity.kind = kind :=
  beq_iff_eq.1 (Bool.and_eq_true_iff.1 h).1

end Entity

namespace Document

def note (kind : EntityKind) (index : TypeIndex) (row : String × Entity) : TypeIndex :=
  match row.2.typeId? with
  | some typeId => if row.2.kind = kind then index.add typeId row.1 else index
  | none => index

variable {kind : EntityKind} {tree : Structure}

theorem paths_note {index : TypeIndex} {row : String × Entity} (h : ∀ typeId, row.1 ∉ index.paths typeId)
    (typeId : String) :
    (note kind index row).paths typeId =
      index.paths typeId ++ if row.2.isOfType kind typeId then [row.1] else [] := by
  rw [note, Entity.isOfType, ← Entity.typeId?_eq]
  cases row.2.typeId? with
  | none => simp
  | some own =>
    by_cases hkind : row.2.kind = kind
    · simp [hkind, TypeIndex.paths_add (h own)]
    · simp [hkind]

/-- As long as no path comes twice, the index has the paths of a type in the order in which they come. -/
theorem paths_foldl_note {rows : List (String × Entity)} (h : (rows.map Prod.fst).Nodup) (typeId : String) :
    (rows.foldl (note kind) .empty).paths typeId =
      (rows.filter (·.2.isOfType kind typeId)).map Prod.fst := by
  induction rows using List.reverseRecOn generalizing typeId with
  | nil => rfl
  | append_singleton rows row ih =>
    rw [List.map_append, List.map_singleton, List.nodup_append] at h
    have hfresh : ∀ typeId, row.1 ∉ (rows.foldl (note kind) .empty).paths typeId := by
      intro typeId hmem
      rw [ih h.1] at hmem
      have hbefore := (List.filter_sublist.map Prod.fst).mem hmem
      exact h.2.2 _ hbefore _ (List.mem_singleton_self _) rfl
    rw [List.foldl_append, List.foldl_cons, List.foldl_nil, paths_note hfresh, ih h.1, List.filter_append,
      List.map_append, List.filter_singleton]
    cases row.2.isOfType kind typeId <;> rfl

theorem paths_indexOf (h : tree.Addressed) (kind : EntityKind) (typeId : String) :
    (indexOf kind tree).paths typeId = (tree.located.filter (·.2.isOfType kind typeId)).map Prod.fst :=
  paths_foldl_note h.nodup_located typeId

theorem nodup_of_mem_values (h : tree.Addressed) {list : List String} (hmem : list ∈ (indexOf kind tree).values) :
    list.Nodup := by
  obtain ⟨typeId, rfl⟩ := TypeIndex.exists_of_mem_values hmem
  rw [paths_indexOf h]
  exact h.nodup_located.sublist (List.filter_sublist.map Prod.fst)

theorem getOfKind?_located (h : tree.Addressed) {path : String} {entity : Entity}
    (hmem : (path, entity) ∈ tree.located) (hkind : entity.kind = kind) :
    (ofStructure tree).getOfKind? kind path = some entity := by
  have hget : (ofStructure tree).get? path = some entity := h.resolve?_located hmem
  rw [getOfKind?, hget]
  exact Option.filter_some_pos (beq_iff_eq.2 hkind)

theorem leads_of_mem_values (h : tree.Addressed) {path : String}
    (hmem : path ∈ (indexOf kind tree).values.flatten) :
    ¬ ((ofStructure tree).getOfKind? kind path).isNone := by
  obtain ⟨list, hlist, hpath⟩ := List.mem_flatten.1 hmem
  obtain ⟨typeId, rfl⟩ := TypeIndex.exists_of_mem_values hlist
  rw [paths_indexOf h] at hpath
  obtain ⟨⟨_, entity⟩, hrow, rfl⟩ := List.mem_map.1 hpath
  obtain ⟨hlocated, htype⟩ := List.mem_filter.1 hrow
  rw [getOfKind?_located h hlocated (Entity.kind_of_isOfType htype)]
  exact Bool.false_ne_true

theorem danglingPaths_ofStructure (h : tree.Addressed) : (ofStructure tree).danglingPaths = [] := by
  rw [danglingPaths, List.append_eq_nil_iff, List.filter_eq_nil_iff, List.filter_eq_nil_iff]
  exact ⟨fun _ => leads_of_mem_values h, fun _ => leads_of_mem_values h⟩

theorem filterMap_paths_indexOf (h : tree.Addressed) (kind : EntityKind) (typeId : String) :
    ((indexOf kind tree).paths typeId).filterMap ((ofStructure tree).getOfKind? kind) =
      (tree.nodes.map (·.entity)).filter (·.isOfType kind typeId) := by
  have hread : ∀ row ∈ tree.located.filter (·.2.isOfType kind typeId),
      ((ofStructure tree).getOfKind? kind ∘ Prod.fst) row = some row.2 := by
    intro row hrow
    obtain ⟨hlocated, htype⟩ := List.mem_filter.1 hrow
    exact getOfKind?_located h hlocated (Entity.kind_of_isOfType htype)
  rw [paths_indexOf h, List.filterMap_map, List.filterMap_congr hread, ← tree.entities_eq, Structure.entities,
    List.filter_map]
  exact congrFun List.filterMap_eq_map _

/-- No path in the indices of a structure leads astray and none comes twice; the resources and the metrics
of a type are those whose type path has the last id of it, in document order. -/
theorem ofStructure_indices (h : tree.Addressed) :
    (ofStructure tree).danglingPaths = [] ∧
    (∀ list ∈ (ofStructure tree).resourceTypes.values ++ (ofStructure tree).metricTypes.values, list.Nodup) ∧
    (∀ typeId, (ofStructure tree).metricsOfType typeId =
      (tree.nodes.map (·.entity)).filter (·.isOfType .metric typeId)) ∧
    (∀ typeId, (ofStructure tree).resourcesOfType typeId =
      (tree.nodes.map (·.entity)).filter (·.isOfType .resource typeId)) := by
  refine ⟨danglingPaths_ofStructure h, ?_, filterMap_paths_indexOf h .metric,
    filterMap_paths_indexOf h .resource⟩
  intro list hlist
  rcases List.mem_append.1 hlist with hlist | hlist
  · exact nodup_of_mem_values h hlist
  · exact nodup_of_mem_values h hlist

/-- Ids with all the marks that a path uses itself. -/
def rack : Structure :=
  .node (.resource "rack" "" none .empty)
    [.node (.metricType "cpu/load" "" .gauge .none 60 .empty) [],
     .node (.resource "a/r;b" "" (some "/t;t1/rt;blade") .empty)
       [.node (.metric "\\;/" "" "/t;t1/mt;cpu\\/load" .empty) []],
     .node (.resource "a" "" (some "rt;blade") .empty)
       [.node (.resource "b" "" none .empty) [],
        .node (.metric "b\\" "" "cpu\\/load" .empty) []]]

theorem ofStructure_indices_rack :
    rack.Addressed ∧ (ofStructure rack).danglingPaths = [] ∧
    ((ofStructure rack).metricsOfType "cpu/load").map (·.id) = ["\\;/", "b\\"] ∧
    ((ofStructure rack).resourcesOfType "blade").map (·.id) = ["a/r;b", "a"] := by
  have haddressed : rack.Addressed := ⟨by decide +kernel, by decide +kernel⟩
  obtain ⟨hdangling, -, hmetrics, hresources⟩ := ofStructure_indices haddressed
  refine ⟨haddressed, hdangling, ?_, ?_⟩
  · rw [hmetrics]
    decide +kernel
  · rw [hresources]
    decide +kernel

end Document

end Inventory

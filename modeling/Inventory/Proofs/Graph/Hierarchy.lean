import Inventory.Proofs.Graph.Derived
import Inventory.Proofs.Graph.Loading
import Inventory.Proofs.Graph.Trees

/-! # The hierarchy of a loaded document

Where the resources of a document have ids of their own, loading it loses none of them and doubles none.
`Structure.topmost` and `Structure.successors` say by lineages which resources should stand at the top and
which below another one, and the graph has them just there.
-/

namespace Inventory

section OwnIds

variable {α : Type} [HasId α] {records : List α}

theorem survivors_of_nodup (h : (records.map HasId.id).Nodup) : survivors records = records := by
  have hlast : ∀ record ∈ records, (lastUnder records ∘ HasId.id) record = some record := by
    intro record hrecord
    exact lastUnder_of_nodup h hrecord
  rw [survivors, eraseDups_of_nodup h, List.filterMap_map, List.filterMap_congr hlast, List.filterMap_some]

end OwnIds

namespace Structure

def topmost (tree : Structure) : List Structure :=
  (tree.lineage.filter fun (above, s) => s.isResource && above.all (!·.isResource)).map Prod.snd

/-- The resources whose nearest resource upwards is a given one. -/
def heirs (tree r : Structure) : List Structure :=
  (tree.lineage.filter fun (above, s) => s.isResource && nearest? above == some r).map Prod.snd

/-- The resources next below one: its children first, then its other heirs. -/
def successors (tree r : Structure) : List Structure :=
  r.children.filter (·.isResource) ++ (tree.heirs r).filter (· ∉ r.children)

structure Identified (tree : Structure) : Prop where
  nodup : (tree.resources.map (·.entity.id)).Nodup
  named : ∀ r ∈ tree.resources, r.entity.id ≠ ""

variable {tree r s : Structure} {above : List Structure}

theorem Identified.eq_of_id (h : tree.Identified) (hr : r ∈ tree.resources) (hs : s ∈ tree.resources)
    (hid : r.entity.id = s.entity.id) : r = s :=
  List.inj_on_of_nodup_map h.nodup hr hs hid

theorem Identified.parentId_eq (h : tree.Identified) (hmem : (above, s) ∈ tree.lineage) :
    (s.toResource (owner? above)).parentId = owner? above := by
  rw [owner?]
  cases hnearest : nearest? above with
  | none => rfl
  | some r => exact if_neg (h.named r (mem_resources_of_nearest? hmem hnearest))

theorem Identified.owner?_eq_some_iff (h : tree.Identified) (hmem : (above, s) ∈ tree.lineage)
    (hr : r ∈ tree.resources) : owner? above = some r.entity.id ↔ nearest? above = some r := by
  rw [owner?, Option.map_eq_some_iff]
  constructor
  · rintro ⟨x, hx, hid⟩
    rw [hx, h.eq_of_id (mem_resources_of_nearest? hmem hx) hr hid]
  · intro hnearest
    exact ⟨r, hnearest, rfl⟩

theorem resources_eq_map (tree : Structure) :
    tree.resources = (tree.lineage.filter (·.2.isResource)).map Prod.snd := by
  rw [resources, nodes, List.filter_map]
  rfl

theorem owner?_eq_none_iff : owner? above = none ↔ above.all (!·.isResource) := by
  rw [owner?, Option.map_eq_none_iff, nearest?, List.find?_eq_none, List.all_eq_true]
  simp

theorem mem_heirs_iff {x : Structure} (hr : r ∈ tree.resources) :
    x ∈ tree.heirs r ↔ x ∈ outermostAll r.children := by
  rw [mem_outermostAll_iff hr, heirs, List.mem_map]
  constructor
  · rintro ⟨⟨above, _⟩, hmem, rfl⟩
    obtain ⟨hlineage, htest⟩ := List.mem_filter.1 hmem
    rw [Bool.and_eq_true, beq_iff_eq] at htest
    exact ⟨htest.1, above, hlineage, htest.2⟩
  · rintro ⟨hx, above, hlineage, hnearest⟩
    refine ⟨(above, x), List.mem_filter.2 ⟨hlineage, ?_⟩, rfl⟩
    rw [Bool.and_eq_true, beq_iff_eq]
    exact ⟨hx, hnearest⟩

theorem mem_successors_iff {x : Structure} (hr : r ∈ tree.resources) :
    x ∈ tree.successors r ↔ x ∈ outermostAll r.children := by
  rw [successors, List.mem_append, List.mem_filter, List.mem_filter, mem_heirs_iff hr, decide_eq_true_eq]
  constructor
  · rintro (⟨hchild, hx⟩ | ⟨hx, -⟩)
    · rw [outermostAll_eq]
      refine List.mem_flatMap_of_mem hchild ?_
      rw [outermost_of_resource hx]
      exact List.mem_singleton_self x
    · exact hx
  · intro hx
    by_cases hchild : x ∈ r.children
    · rw [outermostAll_eq, List.mem_flatMap] at hx
      obtain ⟨c, -, hx⟩ := hx
      exact .inl ⟨hchild, isResource_of_mem_outermost hx⟩
    · exact .inr ⟨hx, hchild⟩

theorem heirs_sublist (tree r : Structure) : (tree.heirs r).Sublist tree.resources := by
  rw [heirs, resources_eq_map]
  apply List.Sublist.map
  apply List.monotone_filter_right
  rintro ⟨above, s⟩ h
  exact (Bool.and_eq_true _ _ ▸ h).1

theorem Identified.nodup_resources (h : tree.Identified) : tree.resources.Nodup :=
  h.nodup.of_map _

theorem Identified.successors_perm (h : tree.Identified) (hr : r ∈ tree.resources) :
    (tree.successors r).Perm (outermostAll r.children) := by
  have hbelow : (outermostAll r.children).Nodup :=
    (h.nodup_resources.sublist (resources_sublist (mem_resources_iff.1 hr).1)).sublist outermostAll_sublist
  have hchildren := hbelow.sublist (filter_isResource_sublist r.children)
  have hothers := (h.nodup_resources.sublist (heirs_sublist tree r)).filter (· ∉ r.children)
  refine (List.perm_ext_iff_of_nodup (hchildren.append hothers ?_) hbelow).2 fun x => mem_successors_iff hr
  intro x hchild hother
  exact of_decide_eq_true (List.mem_filter.1 hother).2 (List.mem_filter.1 hchild).1

theorem mem_resources_of_successor (hr : r ∈ tree.resources) {x : Structure}
    (hx : x ∈ tree.successors r) : x ∈ tree.resources := by
  have hbelow := outermostAll_sublist.mem ((mem_successors_iff hr).1 hx)
  exact (resources_sublist (mem_resources_iff.1 hr).1).mem hbelow

def label (s : Structure) : String × String × String :=
  (s.entity.id, s.entity.name, s.entity.typeId?.getD "")

end Structure

namespace Graph

def loaded (doc : Document) : Graph :=
  (empty.load doc).1.reindex

variable {doc : Document} {r : Structure}

theorem derived_loaded (doc : Document) :
    Derived (loaded doc) (doc.graphRecords.filterMap GraphRecord.resource?)
      (doc.graphRecords.filterMap GraphRecord.resourceType?)
      (doc.graphRecords.filterMap GraphRecord.metric?) := by
  have hholds := (holds_empty.foldl_addRecord doc.graphRecords).reindex
  exact derived_of_fresh hholds (fresh_reindex _)

theorem map_id_loaded (doc : Document) :
    (doc.graphRecords.filterMap GraphRecord.resource?).map HasId.id = doc.tree.resources.map (·.entity.id) := by
  rw [doc.resource?_graphRecords, doc.resourceRecords_eq, doc.tree.resources_eq_map, List.map_map, List.map_map]
  rfl

theorem nodup_records (h : doc.tree.Identified) :
    ((doc.graphRecords.filterMap GraphRecord.resource?).map HasId.id).Nodup := by
  rw [map_id_loaded]
  exact h.nodup

theorem resource?_loaded (h : doc.tree.Identified) {above : List Structure}
    (hmem : (above, r) ∈ doc.tree.lineage) (hr : r.isResource) :
    (loaded doc).resource? r.entity.id = some (r.toResource (Structure.owner? above)) := by
  have hrecord : r.toResource (Structure.owner? above) ∈
      doc.graphRecords.filterMap GraphRecord.resource? := by
    rw [doc.resource?_graphRecords, doc.resourceRecords_eq]
    exact List.mem_map.2 ⟨(above, r), List.mem_filter.2 ⟨hmem, hr⟩, rfl⟩
  rw [(derived_loaded doc).resource?]
  exact lastUnder_of_nodup (nodup_records h) hrecord

theorem topResources_loaded (h : doc.tree.Identified) :
    (loaded doc).topResources.map (·.id) = doc.tree.topmost.map (·.entity.id) := by
  rw [(derived_loaded doc).topResources, survivors_of_nodup (nodup_records h), doc.resource?_graphRecords,
    doc.resourceRecords_eq, List.filter_map, List.map_map, List.filter_filter, Structure.topmost, List.map_map]
  refine congrArg _ (List.filter_congr ?_)
  rintro ⟨above, s⟩ hmem
  rw [Function.comp_apply, h.parentId_eq hmem, Bool.and_comm, Bool.eq_iff_iff, Bool.and_eq_true,
    Bool.and_eq_true, beq_iff_eq, Structure.owner?_eq_none_iff]

theorem declaredIn_loaded (h : doc.tree.Identified) (hr : r ∈ doc.tree.resources) :
    declaredIn (doc.graphRecords.filterMap GraphRecord.resource?) r.entity.id =
      (r.children.filter (·.isResource)).map (·.entity.id) := by
  obtain ⟨hresource, above, hmem⟩ := Structure.mem_resources_iff_lineage.1 hr
  rw [declaredIn, ← (derived_loaded doc).resource?, resource?_loaded h hmem hresource]
  rfl

theorem named_loaded (h : doc.tree.Identified) (hr : r ∈ doc.tree.resources) :
    ((survivors (doc.graphRecords.filterMap GraphRecord.resource?)).filter
      (·.parentId == some r.entity.id)).map (·.id) = (doc.tree.heirs r).map (·.entity.id) := by
  rw [survivors_of_nodup (nodup_records h), doc.resource?_graphRecords, doc.resourceRecords_eq, List.filter_map,
    List.map_map, List.filter_filter, Structure.heirs, List.map_map]
  refine congrArg _ (List.filter_congr ?_)
  rintro ⟨above, s⟩ hmem
  rw [Function.comp_apply, h.parentId_eq hmem, Bool.and_comm, Bool.eq_iff_iff, Bool.and_eq_true,
    Bool.and_eq_true, beq_iff_eq, beq_iff_eq, h.owner?_eq_some_iff hmem hr]

theorem childrenOf_loaded (h : doc.tree.Identified) (hr : r ∈ doc.tree.resources) :
    (loaded doc).childrenOf r.entity.id = (doc.tree.successors r).map (·.entity.id) := by
  have hbelow := Structure.resources_sublist (Structure.mem_resources_iff.1 hr).1
  have hdirect := (Structure.filter_isResource_sublist r.children).trans Structure.outermostAll_sublist
  have hnodup : ((r.children.filter (·.isResource)).map (·.entity.id)).Nodup :=
    h.nodup.sublist ((hdirect.trans hbelow).map _)
  rw [(derived_loaded doc).childrenOf, childrenIn, declaredIn_loaded h hr, named_loaded h hr,
    eraseDups_of_nodup hnodup, Structure.successors, List.map_append, List.filter_map]
  congr 2
  apply List.filter_congr
  intro s hs
  rw [Function.comp_apply, decide_eq_decide, not_iff_not, List.mem_map]
  have hresource := (Structure.heirs_sublist doc.tree r).mem hs
  constructor
  · rintro ⟨c, hc, hid⟩
    rw [← h.eq_of_id ((hdirect.trans hbelow).mem hc) hresource hid]
    exact List.mem_of_mem_filter hc
  · intro hchild
    exact ⟨s, List.mem_filter.2 ⟨hchild, (Structure.mem_resources_iff.1 hresource).2⟩, rfl⟩

theorem stored_successors (h : doc.tree.Identified) (hr : r ∈ doc.tree.resources) :
    (loaded doc).adjacency.stored ((loaded doc).adjacency.children r.entity.id) =
      (doc.tree.successors r).map (·.entity.id) := by
  have hchildren : (loaded doc).adjacency.children r.entity.id = _ := childrenOf_loaded h hr
  rw [hchildren]
  refine List.filter_eq_self.2 ?_
  intro id hid
  obtain ⟨x, hx, rfl⟩ := List.mem_map.1 hid
  obtain ⟨hresource, above, hmem⟩ :=
    Structure.mem_resources_iff_lineage.1 (Structure.mem_resources_of_successor hr hx)
  exact Option.isSome_of_eq_some (resource?_loaded h hmem hresource)

/-- The tree of a resource, made of just the resources at and below it. -/
def TreeOf (g : Graph) (r : Structure) (t : ResourceNode) : Prop :=
  g.adjacency.Unfolds r.entity.id t ∧ t.labels.Perm (r.resources.map Structure.label)

theorem exists_forest {g : Graph} {rs : List Structure} (h : ∀ r ∈ rs, ∃ t, g.TreeOf r t) :
    ∃ ts, List.Forall₂ g.adjacency.Unfolds (rs.map (·.entity.id)) ts ∧
      (ResourceNode.labelsAll ts).Perm ((rs.flatMap Structure.resources).map Structure.label) := by
  induction rs with
  | nil => exact ⟨[], .nil, .nil⟩
  | cons r rest ih =>
    rw [List.forall_mem_cons] at h
    obtain ⟨t, hunfolds, hperm⟩ := h.1
    obtain ⟨ts, hts, hrest⟩ := ih h.2
    refine ⟨t :: ts, .cons hunfolds hts, ?_⟩
    rw [ResourceNode.labelsAll, List.flatMap_cons, List.map_append]
    exact hperm.append hrest

theorem exists_tree_of_successors (h : doc.tree.Identified) (hr : r ∈ doc.tree.resources)
    (hbelow : ∀ x ∈ doc.tree.successors r, ∃ t, (loaded doc).TreeOf x t) : ∃ t, (loaded doc).TreeOf r t := by
  obtain ⟨hresource, above, hmem⟩ := Structure.mem_resources_iff_lineage.1 hr
  obtain ⟨ts, hunfolds, hperm⟩ := exists_forest hbelow
  rw [← stored_successors h hr] at hunfolds
  refine ⟨_, .node (resource?_loaded h hmem hresource) hunfolds, ?_⟩
  rw [ResourceNode.labels, Structure.resources_eq_cons hresource, List.map_cons]
  refine List.Perm.cons _ (hperm.trans ?_)
  exact ((h.successors_perm hr).flatMap_right _).map _

/-- By induction down the document: what stands next below a resource stands deeper in it. -/
theorem exists_tree (h : doc.tree.Identified) (hr : r ∈ doc.tree.resources) :
    ∃ t, (loaded doc).TreeOf r t := by
  have hsub : ∀ s : Structure, s.resources ⊆ doc.tree.resources → ∀ x ∈ s.resources,
      ∃ t, (loaded doc).TreeOf x t := by
    intro s
    induction s using Structure.induct with
    | node entity children ih =>
      intro hs
      have hchildren : ∀ c ∈ children, ∀ x ∈ c.resources, ∃ t, (loaded doc).TreeOf x t := by
        intro c hc
        apply ih c hc
        intro x hx
        exact hs (Structure.mem_resources_of_child hc hx)
      intro x hx
      have hxtree := hs hx
      rw [Structure.resources_eq, List.mem_append, List.mem_flatMap] at hx
      rcases hx with hx | ⟨c, hc, hx⟩
      · split at hx
        · rw [List.mem_singleton] at hx
          subst hx
          apply exists_tree_of_successors h hxtree
          intro y hy
          have hy := (Structure.mem_successors_iff hxtree).1 hy
          rw [Structure.outermostAll_eq, List.mem_flatMap] at hy
          obtain ⟨c, hc, hy⟩ := hy
          exact hchildren c hc y ((Structure.outermost_sublist c).mem hy)
        · cases hx
      · exact hchildren c hc x hx
  exact hsub doc.tree (List.Subset.refl _) r hr

/-- What is loaded has the resources of the document at the top that no resource stands over, and below
each resource those next below it. The tree of a resource holds what stands at and below it, each once. -/
theorem loaded_hierarchy (h : doc.tree.Identified) :
    (loaded doc).topResources.map (·.id) = doc.tree.topmost.map (·.entity.id) ∧
    (∀ r ∈ doc.tree.resources,
      (loaded doc).childrenOf r.entity.id = (doc.tree.successors r).map (·.entity.id)) ∧
    (∀ r ∈ doc.tree.resources, ∀ limits : TreeLimits, doc.tree.resources.length ≤ limits.maxDepth →
      doc.tree.resources.length ≤ limits.maxNodes →
      ∃ t, (loaded doc).tree? limits r.entity.id = .ok (some t) ∧
        t.labels.Perm (r.resources.map Structure.label)) := by
  refine ⟨topResources_loaded h, fun r hr => childrenOf_loaded h hr, ?_⟩
  intro r hr limits hdepth hnodes
  obtain ⟨t, hunfolds, hperm⟩ := exists_tree h hr
  have hcount : t.count ≤ doc.tree.resources.length := by
    rw [← ResourceNode.length_labels, hperm.length_eq, List.length_map]
    exact (Structure.resources_sublist (Structure.mem_resources_iff.1 hr).1).length_le
  have hlevels := t.levels_le_count
  refine ⟨t, buildTree_of_unfolds (loaded doc).keyed_adjacency hunfolds ⟨?_, ?_⟩, hperm⟩
  · omega
  · omega

/-- A plant with a resource below a type and another one below a metric. -/
def plant : Document :=
  let resource (id : String) (children : List Structure) : Structure :=
    .node (.resource id id none .empty) children
  .bare (.node (.resourceType "site" "" [] .empty)
    [resource "plant"
      [.node (.resourceType "valve" "" [] .empty) [resource "spare" []],
       resource "pump" [.node (.metric "speed" "" "/" .empty) [resource "sensor" []]],
       resource "tank" []],
     resource "depot" []])

theorem loaded_hierarchy_plant :
    plant.tree.Identified ∧
    (loaded plant).topResources.map (·.id) = ["plant", "depot"] ∧
    (loaded plant).childrenOf "plant" = ["pump", "tank", "spare"] ∧
    ∃ t, (loaded plant).tree? ⟨6, 6⟩ "plant" = .ok (some t) ∧
      (t.labels.map Prod.fst).Perm ["plant", "spare", "pump", "sensor", "tank"] := by
  have hids : plant.tree.Identified := ⟨by decide +kernel, by decide +kernel⟩
  obtain ⟨htop, hchildren, htrees⟩ := loaded_hierarchy hids
  have hplant : ∃ r ∈ plant.tree.resources, r.entity.id = "plant" ∧
      (plant.tree.successors r).map (·.entity.id) = ["pump", "tank", "spare"] ∧
      r.resources.map (·.entity.id) = ["plant", "spare", "pump", "sensor", "tank"] := by decide +kernel
  obtain ⟨r, hr, hid, hsuccessors, hbelow⟩ := hplant
  have hlength : plant.tree.resources.length = 6 := by decide +kernel
  obtain ⟨t, htree, hperm⟩ := htrees r hr ⟨6, 6⟩ hlength.le hlength.le
  refine ⟨hids, htop.trans (by decide +kernel), ?_, t, hid ▸ htree, ?_⟩
  · rw [← hid, hchildren r hr, hsuccessors]
  · have hids := hperm.map Prod.fst
    rw [List.map_map] at hids
    exact hbelow ▸ hids

end Graph

end Inventory

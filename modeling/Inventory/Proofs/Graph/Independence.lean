import Inventory.Proofs.Graph.Loading
import Inventory.Proofs.Graph.Reordering

/-! # Documents without common ids

Two documents that have no id in common may be loaded in either order. What comes new with them then stands in
another order (`Store.Crossed`), but no link leads from one document into the other (`Document.closed`), and each of
them keeps its own order. So the links of an id are the same lists, and with them the trees.
-/

namespace Inventory

theorem filter_swap {α : Type} {p : α → Bool} {as bs : List α} (h : ∀ a ∈ as, ∀ b ∈ bs, p a → ¬ p b) :
    (as ++ bs).filter p = (bs ++ as).filter p := by
  rw [List.filter_append, List.filter_append]
  cases has : as.filter p with
  | nil => rw [List.nil_append, List.append_nil]
  | cons a rest =>
    have hmem : a ∈ as.filter p := has ▸ List.mem_cons_self
    obtain ⟨ha, hpa⟩ := List.mem_filter.1 hmem
    have hbs : bs.filter p = [] := List.filter_eq_nil_iff.2 fun b hb => h a ha b hb hpa
    rw [hbs, List.append_nil, List.nil_append]

namespace Store

variable {α : Type} [HasId α]

/-- The same records under the same ids. Some ids at the end stand the other way round: first those that belong
to the left, then those that belong to the right. -/
structure Crossed (s t : Store α) (left right : List String) : Prop where
  get?_eq : ∀ id, s.get? id = t.get? id
  ids_eq : ∃ old as bs : List String, as ⊆ left ∧ bs ⊆ right ∧
    s.ids = old ++ (as ++ bs) ∧ t.ids = old ++ (bs ++ as)

theorem Crossed.filter_ids {s t : Store α} {left right : List String} (h : Crossed s t left right)
    {p : String → Bool} (hp : ∀ a ∈ left, ∀ b ∈ right, p a → ¬ p b) : s.ids.filter p = t.ids.filter p := by
  obtain ⟨old, as, bs, has, hbs, hs, ht⟩ := h.ids_eq
  have hswap : (as ++ bs).filter p = (bs ++ as).filter p :=
    filter_swap fun a ha b hb => hp a (has ha) b (hbs hb)
  rw [hs, ht, List.filter_append, hswap, ← List.filter_append]

def newIds (s : Store α) (records : List α) : List String :=
  ((records.map HasId.id).filter (· ∉ s.ids)).eraseDups

theorem newIds_subset (s : Store α) (records : List α) : s.newIds records ⊆ records.map HasId.id := by
  intro id hid
  exact List.mem_of_mem_filter (List.mem_eraseDups.1 hid)

theorem get?_foldl_put_of_mem (s : Store α) {records : List α} {id : String} (h : id ∈ records.map HasId.id) :
    (records.foldl put s).get? id = lastUnder records id := by
  rw [get?_foldl_put]
  cases hlast : lastUnder records id with
  | none => exact absurd h (lastUnder_eq_none_iff.1 hlast)
  | some record => rfl

section Disjoint

variable (s : Store α) {first second : List α} (h : (first.map HasId.id).Disjoint (second.map HasId.id))

include h

theorem get?_foldl_put_comm (id : String) :
    (second.foldl put (first.foldl put s)).get? id = (first.foldl put (second.foldl put s)).get? id := by
  rw [get?_foldl_put, get?_foldl_put, get?_foldl_put, get?_foldl_put]
  by_cases hid : id ∈ first.map HasId.id
  · simp only [lastUnder_eq_none_iff.2 (h hid), Option.none_or]
  · simp only [lastUnder_eq_none_iff.2 hid, Option.none_or]

theorem ids_foldl_put_foldl_put :
    (second.foldl put (first.foldl put s)).ids = s.ids ++ (s.newIds first ++ s.newIds second) := by
  have hnew : (second.map HasId.id).filter (· ∉ (first.foldl put s).ids) =
      (second.map HasId.id).filter (· ∉ s.ids) := by
    refine List.filter_congr fun id hid => ?_
    rw [decide_eq_decide, not_iff_not, ids_foldl_put, List.mem_append, List.mem_eraseDups, List.mem_filter]
    exact or_iff_left fun hfirst => h hfirst.1 hid
  rw [ids_foldl_put, hnew, ids_foldl_put, List.append_assoc, newIds, newIds]

theorem crossed_foldl_put :
    Crossed (second.foldl put (first.foldl put s)) (first.foldl put (second.foldl put s))
      (first.map HasId.id) (second.map HasId.id) where
  get?_eq := s.get?_foldl_put_comm h
  ids_eq := ⟨s.ids, s.newIds first, s.newIds second, s.newIds_subset first, s.newIds_subset second,
    s.ids_foldl_put_foldl_put h, s.ids_foldl_put_foldl_put (List.disjoint_symm h)⟩

/-- What stands under an id of the first records is not touched by the second ones. -/
theorem get?_foldl_put_of_disjoint {id : String} (hid : id ∈ first.map HasId.id) :
    (second.foldl put (first.foldl put s)).get? id = lastUnder first id :=
  ((takes_foldl_put _ second).other id (h hid)).trans (s.get?_foldl_put_of_mem hid)

end Disjoint

end Store

namespace Store

variable {s t : Store Resource} {left right : List String}

def parent? (s : Store Resource) (id : String) : Option String :=
  (s.get? id).bind (·.parentId)

theorem named_eq (s : Store Resource) (id : String) : s.named id = s.ids.filter (s.parent? · == some id) := by
  have hids : s.records.map (·.id) = s.ids := s.map_id_records
  have hparent : ∀ r ∈ s.records, (r.parentId == some id) = (s.parent? r.id == some id) := by
    intro r hr
    have hget : s.get? r.id = some r := s.get?_id_of_mem hr
    rw [parent?, hget]
    rfl
  rw [named, List.filter_congr hparent, ← hids, List.filter_map]
  rfl

theorem mem_children_iff {parent id : String} :
    id ∈ (Index.allChildren s.records).idsOf parent ↔ id ∈ s.declared parent ∨ s.parent? id = some parent := by
  rw [idsOf_allChildren_records, List.mem_append, List.mem_eraseDups, List.mem_filter, decide_eq_true_eq,
    mem_named_iff, parent?, Option.bind_eq_some_iff]
  by_cases h : id ∈ s.declared parent
  · simp [h]
  · simp [h]

/-- No link leads from a resource among some ids to another id: neither to a child that it declares nor to its
parent. -/
structure Closed (s : Store Resource) (ids : List String) : Prop where
  declared : ∀ id ∈ ids, ∀ child ∈ s.declared id, child ∈ ids
  parent : ∀ id ∈ ids, ∀ parent, s.parent? id = some parent → parent ∈ ids

structure Apart (s : Store Resource) (left right : List String) : Prop where
  leftClosed : s.Closed left
  rightClosed : s.Closed right
  disjoint : left.Disjoint right

theorem Apart.not_common_parent (h : s.Apart left right) {p q id : String} (hp : p ∈ left) (hq : q ∈ right)
    (hpid : s.parent? p = some id) : ¬ s.parent? q = some id := by
  intro hqid
  exact h.disjoint (h.leftClosed.parent p hp id hpid) (h.rightClosed.parent q hq id hqid)

/-- A child of both sides would lead from one to the other, whether it is declared or names its parent. -/
theorem Apart.not_common_child (h : s.Apart left right) {p q id : String} (hp : p ∈ left) (hq : q ∈ right)
    (hpid : id ∈ (Index.allChildren s.records).idsOf p) : ¬ id ∈ (Index.allChildren s.records).idsOf q := by
  rw [mem_children_iff] at hpid ⊢
  rintro (hqdeclared | hqparent)
  · have hid := h.rightClosed.declared q hq id hqdeclared
    rcases hpid with hpdeclared | hpparent
    · exact h.disjoint (h.leftClosed.declared p hp id hpdeclared) hid
    · exact h.disjoint hp (h.rightClosed.parent id hid p hpparent)
  · rcases hpid with hpdeclared | hpparent
    · exact h.disjoint (h.leftClosed.parent id (h.leftClosed.declared p hp id hpdeclared) q hqparent) hq
    · rw [hpparent, Option.some.injEq] at hqparent
      exact h.disjoint hp (hqparent ▸ hq)

theorem Crossed.named_eq (h : Crossed s t left right) (hapart : s.Apart left right) (id : String) :
    s.named id = t.named id := by
  have hparent : s.parent? = t.parent? := by
    funext child
    rw [parent?, parent?, h.get?_eq]
  rw [Store.named_eq, Store.named_eq, ← hparent]
  apply h.filter_ids
  intro p hp q hq hpid hqid
  exact hapart.not_common_parent hp hq (beq_iff_eq.1 hpid) (beq_iff_eq.1 hqid)

theorem Crossed.children_eq (h : Crossed s t left right) (hapart : s.Apart left right) (id : String) :
    (Index.allChildren s.records).idsOf id = (Index.allChildren t.records).idsOf id := by
  rw [idsOf_allChildren_records, idsOf_allChildren_records, h.named_eq hapart, declared_eq h.get?_eq]

theorem strangers_eq (h : ∀ id, s.get? id = t.get? id) (id : String) : s.strangers id = t.strangers id := by
  have hmem : ∀ parent, parent ∈ s.strangers id ↔ parent ∈ t.strangers id := by
    intro parent
    rw [mem_strangers_iff, mem_strangers_iff, (children_perm h parent).mem_iff, (ids_perm h).mem_iff]
  have hperm := (List.perm_ext_iff_of_nodup (s.nodup_strangers id) (t.nodup_strangers id)).2 hmem
  -- There is one at most, so any order will do.
  have hany : ∀ ids : List String, ids.Pairwise fun _ _ => True :=
    fun ids => List.pairwise_of_forall fun _ _ => trivial
  exact hperm.eq_of_pairwise (fun p q hp hq _ _ => s.eq_of_mem_strangers hp ((hmem q).2 hq)) (hany _) (hany _)

theorem Crossed.parents_eq (h : Crossed s t left right) (hapart : s.Apart left right) (id : String) :
    (Index.allParents s.records (Index.allChildren s.records)).idsOf id =
      (Index.allParents t.records (Index.allChildren t.records)).idsOf id := by
  have hchildren : (Index.allChildren s.records).idsOf = (Index.allChildren t.records).idsOf :=
    funext (h.children_eq hapart)
  rw [idsOf_allParents_records, idsOf_allParents_records, strangers_eq h.get?_eq, ← hchildren]
  refine congrArg _ (h.filter_ids ?_)
  intro p hp q hq hpid hqid
  exact hapart.not_common_child hp hq (of_decide_eq_true hpid) (of_decide_eq_true hqid)

end Store

namespace Structure

variable {tree s : Structure} {above : List Structure} {kind : EntityKind} {id : String}

theorem mem_idsOf_iff : id ∈ tree.idsOf kind ↔ ∃ x ∈ tree.nodes, x.entity.kind = kind ∧ x.entity.id = id := by
  rw [idsOf, rowsOf, List.mem_map]
  constructor
  · rintro ⟨⟨above, x⟩, hrow, rfl⟩
    obtain ⟨hmem, hkind⟩ := List.mem_filter.1 hrow
    exact ⟨x, mem_nodes_iff.2 ⟨above, hmem⟩, beq_iff_eq.1 hkind, rfl⟩
  · rintro ⟨x, hx, hkind, rfl⟩
    obtain ⟨above, hmem⟩ := mem_nodes_iff.1 hx
    exact ⟨(above, x), List.mem_filter.2 ⟨hmem, beq_iff_eq.2 hkind⟩, rfl⟩

theorem childIds_subset (h : (above, s) ∈ tree.lineage) : s.childIds kind ⊆ tree.idsOf kind := by
  intro id hid
  obtain ⟨c, hc, rfl⟩ := List.mem_map.1 hid
  obtain ⟨hchild, hkind⟩ := List.mem_filter.1 hc
  exact mem_idsOf_iff.2 ⟨c, mem_nodes_iff.2 ⟨_, child_mem_lineageUnder h hchild⟩, beq_iff_eq.1 hkind, rfl⟩

theorem mem_idsOf_of_owner? (h : (above, s) ∈ tree.lineage) (howner : owner? above = some id) :
    id ∈ tree.idsOf .resource := by
  obtain ⟨r, hr, rfl⟩ := Option.map_eq_some_iff.1 howner
  obtain ⟨hnode, hresource⟩ := mem_resources_iff.1 (mem_resources_of_nearest? h hr)
  exact mem_idsOf_iff.2 ⟨r, hnode, beq_iff_eq.1 hresource, rfl⟩

theorem owner?_of_parentId {owner : Option String} (h : (s.toResource owner).parentId = some id) :
    owner = some id := by
  cases owner with
  | none => cases h
  | some parent =>
    have hparent : (if parent = "" then none else some parent) = some id := h
    split at hparent
    · cases hparent
    · exact hparent

end Structure

namespace Document

variable {d e : Document}

/-- No resource, type of resources or metric of one document has the id of one of the other. The types of metrics may
have what ids they like. -/
structure Independent (d e : Document) : Prop where
  resources : (d.tree.idsOf .resource).Disjoint (e.tree.idsOf .resource)
  resourceTypes : (d.tree.idsOf .resourceType).Disjoint (e.tree.idsOf .resourceType)
  metrics : (d.tree.idsOf .metric).Disjoint (e.tree.idsOf .metric)

theorem Independent.symm (h : d.Independent e) : e.Independent d :=
  ⟨List.disjoint_symm h.resources, List.disjoint_symm h.resourceTypes, List.disjoint_symm h.metrics⟩

theorem Independent.resourceRecords (h : d.Independent e) :
    (d.resourceRecords.map HasId.id).Disjoint (e.resourceRecords.map HasId.id) := by
  rw [map_id_resourceRecords, map_id_resourceRecords]
  exact h.resources

theorem Independent.resourceTypeRecords (h : d.Independent e) :
    (d.resourceTypeRecords.map HasId.id).Disjoint (e.resourceTypeRecords.map HasId.id) := by
  rw [map_id_resourceTypeRecords, map_id_resourceTypeRecords]
  exact h.resourceTypes

theorem Independent.metricRecords (h : d.Independent e) :
    (d.metricRecords.map HasId.id).Disjoint (e.metricRecords.map HasId.id) := by
  rw [map_id_metricRecords, map_id_metricRecords]
  exact h.metrics

/-- The links of a document stay within it. -/
theorem closed {s : Store Resource}
    (h : ∀ id ∈ d.resourceRecords.map HasId.id, s.get? id = lastUnder d.resourceRecords id) :
    s.Closed (d.resourceRecords.map HasId.id) := by
  have hrow : ∀ id ∈ d.resourceRecords.map HasId.id, ∃ above x, (above, x) ∈ d.tree.lineage ∧
      s.get? id = some (x.toResource (Structure.owner? above)) := by
    intro id hid
    cases hlast : lastUnder d.resourceRecords id with
    | none => exact absurd hid (lastUnder_eq_none_iff.1 hlast)
    | some r =>
      obtain ⟨⟨above, x⟩, hmem, rfl⟩ := List.mem_map.1 (mem_of_lastUnder hlast)
      exact ⟨above, x, List.mem_of_mem_filter hmem, (h id hid).trans hlast⟩
  constructor
  case declared =>
    intro id hid child hchild
    obtain ⟨above, x, hmem, hget⟩ := hrow id hid
    rw [Store.declared, hget] at hchild
    rw [map_id_resourceRecords]
    exact Structure.childIds_subset hmem hchild
  case parent =>
    intro id hid parent hparent
    obtain ⟨above, x, hmem, hget⟩ := hrow id hid
    rw [Store.parent?, hget] at hparent
    rw [map_id_resourceRecords]
    exact Structure.mem_idsOf_of_owner? hmem (Structure.owner?_of_parentId hparent)

theorem Independent.apart (h : d.Independent e) (s : Store Resource) :
    (e.resourceRecords.foldl .put (d.resourceRecords.foldl .put s)).Apart
      (d.resourceRecords.map HasId.id) (e.resourceRecords.map HasId.id) where
  leftClosed := closed fun _ hid => s.get?_foldl_put_of_disjoint h.resourceRecords hid
  rightClosed := closed fun _ hid => Store.get?_foldl_put_of_mem _ hid
  disjoint := h.resourceRecords

end Document

namespace Graph

/-- Two graphs that answer alike, but for the order in which they list resources and types. -/
structure SameAnswers (g other : Graph) : Prop where
  resource? : ∀ id, g.resource? id = other.resource? id
  resourceType? : ∀ id, g.resourceType? id = other.resourceType? id
  metric? : ∀ id, g.metric? id = other.metric? id
  metricsOf? : ∀ id, g.metricsOf? id = other.metricsOf? id
  childrenOf : ∀ id, g.childrenOf id = other.childrenOf id
  parentsOf : ∀ id, g.parentsOf id = other.parentsOf id
  tree? : ∀ limits root, g.tree? limits root = other.tree? limits root
  topResources : g.topResources.Perm other.topResources
  resourcesOfType : ∀ typeId, (g.resourcesOfType typeId).Perm (other.resourcesOfType typeId)
  allResourceTypes : g.allResourceTypes.Perm other.allResourceTypes

variable {g other : Graph} {d e : Document} {left right : List String}

theorem Fresh.sameAnswers (hg : g.Fresh) (hother : other.Fresh)
    (hresources : g.resources.Crossed other.resources left right) (hapart : g.resources.Apart left right)
    (htypes : ∀ id, g.resourceType? id = other.resourceType? id)
    (hmetrics : ∀ id, g.metric? id = other.metric? id) : SameAnswers g other := by
  have hresource? : g.resource? = other.resource? := funext hresources.get?_eq
  have hchildrenOf : g.childrenOf = other.childrenOf := by
    funext id
    rw [hg.childrenOf_eq, hother.childrenOf_eq, hresources.children_eq hapart]
  have horder := hg.sameButOrder hother hresources.get?_eq
  constructor
  case resource? => exact hresources.get?_eq
  case resourceType? => exact htypes
  case metric? => exact hmetrics
  case metricsOf? =>
    intro id
    have hget : g.metrics.get? = other.metrics.get? := funext hmetrics
    rw [Graph.metricsOf?, Graph.metricsOf?, hresource?]
    simp only [Store.getAll, hget]
  case childrenOf => exact congrFun hchildrenOf
  case parentsOf =>
    intro id
    rw [hg.parentsOf_eq, hother.parentsOf_eq, hresources.parents_eq hapart]
  case tree? =>
    intro limits root
    rw [Graph.tree?, Graph.tree?, adjacency, adjacency, hresource?, hchildrenOf]
  case topResources => exact horder.topResources.2
  case resourcesOfType => exact fun typeId => (horder.resourcesOfType typeId).2
  case allResourceTypes => exact Store.records_perm htypes

theorem resources_ingest (g : Graph) (d : Document) :
    (g.ingest d).1.resources = d.resourceRecords.foldl .put g.resources :=
  g.resources_load d

theorem resourceTypes_ingest (g : Graph) (d : Document) :
    (g.ingest d).1.resourceTypes = d.resourceTypeRecords.foldl .put g.resourceTypes :=
  g.resourceTypes_load d

theorem metrics_ingest (g : Graph) (d : Document) :
    (g.ingest d).1.metrics = d.metricRecords.foldl .put g.metrics :=
  g.metrics_load d

theorem fresh_ingest (g : Graph) (d : Document) : (g.ingest d).1.Fresh :=
  fresh_reindex _

theorem sameAnswers_ingest (h : d.Independent e) (g : Graph) :
    SameAnswers ((g.ingest d).1.ingest e).1 ((g.ingest e).1.ingest d).1 := by
  have hcrossed : ((g.ingest d).1.ingest e).1.resources.Crossed ((g.ingest e).1.ingest d).1.resources
      (d.resourceRecords.map HasId.id) (e.resourceRecords.map HasId.id) := by
    rw [resources_ingest, resources_ingest, resources_ingest, resources_ingest]
    exact g.resources.crossed_foldl_put h.resourceRecords
  have hapart : ((g.ingest d).1.ingest e).1.resources.Apart
      (d.resourceRecords.map HasId.id) (e.resourceRecords.map HasId.id) := by
    rw [resources_ingest, resources_ingest]
    exact h.apart g.resources
  refine (fresh_ingest _ e).sameAnswers (fresh_ingest _ d) hcrossed hapart ?_ ?_
  · intro id
    rw [resourceType?, resourceType?, resourceTypes_ingest, resourceTypes_ingest, resourceTypes_ingest,
      resourceTypes_ingest]
    exact g.resourceTypes.get?_foldl_put_comm h.resourceTypeRecords id
  · intro id
    rw [metric?, metric?, metrics_ingest, metrics_ingest, metrics_ingest, metrics_ingest]
    exact g.metrics.get?_foldl_put_comm h.metricRecords id

/-- A metric is the one of the document that was loaded with it, also after the other document came. -/
theorem metric?_ingest (h : d.Independent e) (g : Graph) {id : String} (hid : id ∈ d.tree.idsOf .metric) :
    ((g.ingest d).1.ingest e).1.metric? id = (g.ingest d).1.metric? id := by
  rw [← d.map_id_metricRecords] at hid
  rw [metric?, metric?, metrics_ingest, metrics_ingest, g.metrics.get?_foldl_put_of_disjoint h.metricRecords hid,
    g.metrics.get?_foldl_put_of_mem hid]

/-- Two documents that share no id may be ingested in either order. The answers are the same then, and the listings
have the same entries. Above all, neither document changes the metrics of the other one, whatever types of metrics
it brings. -/
theorem ingest_comm (h : d.Independent e) (g : Graph) :
    SameAnswers ((g.ingest d).1.ingest e).1 ((g.ingest e).1.ingest d).1 ∧
    (∀ id ∈ d.tree.idsOf .metric, ((g.ingest d).1.ingest e).1.metric? id = (g.ingest d).1.metric? id) ∧
    ∀ id ∈ e.tree.idsOf .metric, ((g.ingest d).1.ingest e).1.metric? id = (g.ingest e).1.metric? id := by
  have hsame := sameAnswers_ingest h g
  refine ⟨hsame, fun _ hid => metric?_ingest h g hid, fun id hid => ?_⟩
  rw [hsame.metric?]
  exact metric?_ingest h.symm g hid

/-- A branch with a pump whose flow is measured in litres, as the branch understands them. -/
def branch (name : String) (unit : MetricUnit) : Document :=
  .bare (.node (.resource name "" none .empty)
    [.node (.resourceType (name ++ "-type") "" [] .empty) [],
     .node (.resource (name ++ "-pump") "" none .empty)
       [.node (.metric (name ++ "-flow") "Flow" "/mt;litres" .empty) []],
     .node (.metricType "litres" "" .gauge unit 30 .empty) []])

/-- An office was there before, and declares the pumps of both branches. -/
theorem ingest_comm_branches :
    let north := branch "north" .perMinute
    let south := branch "south" .perSecond
    let g := empty.addResources [{ Resource.plain "office" "" "" with childIds := ["south-pump", "north-pump"] }]
    north.Independent south ∧
    ((g.ingest north).1.ingest south).1.parentsOf "north-pump" = ["office", "north"] ∧
    ((g.ingest south).1.ingest north).1.parentsOf "north-pump" = ["office", "north"] ∧
    ((g.ingest north).1.ingest south).1.metric? "north-flow" =
      some ⟨"north-flow", "litres", "Flow", .perMinute, 30, .empty⟩ ∧
    ((g.ingest north).1.ingest south).1.metric? "south-flow" =
      some ⟨"south-flow", "litres", "Flow", .perSecond, 30, .empty⟩ ∧
    (((g.ingest north).1.ingest south).1.topResources.map (·.id)).Perm ["office", "south", "north"] := by
  intro north south g
  have hindependent : north.Independent south :=
    ⟨List.disjoint_left.2 (by decide +kernel), List.disjoint_left.2 (by decide +kernel),
      List.disjoint_left.2 (by decide +kernel)⟩
  obtain ⟨hsame, hnorth, hsouth⟩ := ingest_comm hindependent g
  have hparents : ((g.ingest south).1.ingest north).1.parentsOf "north-pump" = ["office", "north"] := by
    decide +kernel
  have htop : ((g.ingest south).1.ingest north).1.topResources.map (·.id) = ["office", "south", "north"] := by
    decide +kernel
  refine ⟨hindependent, (hsame.parentsOf _).trans hparents, hparents, ?_, ?_, htop ▸ hsame.topResources.map _⟩
  · rw [hnorth "north-flow" (by decide +kernel)]
    decide +kernel
  · rw [hsouth "south-flow" (by decide +kernel)]
    decide +kernel

end Graph

end Inventory

import Inventory.Proofs.Graph.Adjacency
import Inventory.Proofs.Graph.Replay

/-! # Listings and links after a history

The parents of an id could as well be gathered in one pass over the adjacency, in whatever order a hash
map gives it, and then sorted by the places of the resources: `Store.sortByPlace_turnedIn`. With that,
`Derived` says what a graph answers after a batch, in terms of the records written and of nothing else.
-/

namespace Inventory

namespace Links

def push (links : Links) (key id : String) : Links :=
  links.alter key fun old => some (old.getD [] ++ [id])

theorem idsOf_push (links : Links) (key id other : String) :
    (links.push key id).idsOf other =
      if other = key then links.idsOf other ++ [id] else links.idsOf other := by
  rw [idsOf, idsOf, push, Std.TreeMap.getD_eq_getD_getElem?, Std.TreeMap.getD_eq_getD_getElem?,
    Std.TreeMap.getElem?_alter]
  by_cases h : other = key
  · subst h
    simp
  · simp [h, Ne.symm h]

/-- The parents of each id, noted as the keys of the adjacency come up in some order. -/
def turnedIn (order : List String) (children : String → List String) : Links :=
  order.foldl (fun links parent =>
    (children parent).eraseDups.foldl (fun links child => links.push child parent) links) ∅

theorem idsOf_foldl_push {children : List String} (h : children.Nodup) (links : Links) (parent id : String) :
    (children.foldl (fun links child => links.push child parent) links).idsOf id =
      links.idsOf id ++ if id ∈ children then [parent] else [] := by
  induction children generalizing links with
  | nil => exact (List.append_nil _).symm
  | cons child rest ih =>
    obtain ⟨hchild, hrest⟩ := List.nodup_cons.1 h
    rw [List.foldl_cons, ih hrest, idsOf_push]
    by_cases heq : id = child
    · subst heq
      rw [if_pos rfl, if_neg hchild, if_pos List.mem_cons_self, List.append_nil]
    · rw [if_neg heq]
      simp [heq]

theorem idsOf_turnedIn {children : String → List String} (hnodup : ∀ parent, (children parent).Nodup)
    (order : List String) (id : String) :
    (turnedIn order children).idsOf id = order.filter fun parent => id ∈ children parent := by
  have hfold : ∀ links : Links, (order.foldl (fun links parent =>
      (children parent).eraseDups.foldl (fun links child => links.push child parent) links) links).idsOf id =
      links.idsOf id ++ order.filter fun parent => id ∈ children parent := by
    induction order with
    | nil => exact fun links => (List.append_nil _).symm
    | cons parent rest ih =>
      intro links
      rw [List.foldl_cons, ih, eraseDups_of_nodup (hnodup parent), idsOf_foldl_push (hnodup parent),
        List.append_assoc, List.filter_cons]
      by_cases h : id ∈ children parent
      · rw [if_pos h, if_pos (decide_eq_true h), List.singleton_append]
      · rw [if_neg h, if_neg (by simpa using h), List.nil_append]
  have hempty : Links.idsOf ∅ id = [] := by
    rw [Links.idsOf, Std.TreeMap.getD_emptyc]
  rw [turnedIn, hfold, hempty, List.nil_append]

end Links

/-- The place of an id among others, counted from one; zero if it has none. -/
def placeOf (among : List String) (id : String) : Nat :=
  if id ∈ among then among.idxOf id + 1 else 0

/-- Ids in the order of their places among others, those without a place first. -/
def sortByPlace (among ids : List String) : List String :=
  ids.mergeSort fun p q => placeOf among p ≤ placeOf among q

theorem eq_of_placeOf_eq {among : List String} {p q : String} (hp : p ∈ among)
    (h : placeOf among p = placeOf among q) : p = q := by
  by_cases hq : q ∈ among
  · rw [placeOf, placeOf, if_pos hp, if_pos hq, Nat.add_right_cancel_iff] at h
    exact (List.idxOf_inj hp).1 h
  · rw [placeOf, placeOf, if_pos hp, if_neg hq] at h
    cases h

theorem pairwise_placeOf {among : List String} (h : among.Nodup) :
    among.Pairwise fun p q => placeOf among p ≤ placeOf among q := by
  refine List.pairwise_iff_getElem.2 fun i j hi hj hij => ?_
  rw [placeOf, placeOf, if_pos (List.getElem_mem hi), if_pos (List.getElem_mem hj), h.idxOf_getElem,
    h.idxOf_getElem]
  omega

theorem sortByPlace_perm (among ids : List String) : (sortByPlace among ids).Perm ids :=
  List.mergeSort_perm ids _

theorem pairwise_sortByPlace (among ids : List String) :
    (sortByPlace among ids).Pairwise fun p q => placeOf among p ≤ placeOf among q := by
  have htrans : ∀ p q r : String, decide (placeOf among p ≤ placeOf among q) = true →
      decide (placeOf among q ≤ placeOf among r) = true →
      decide (placeOf among p ≤ placeOf among r) = true := by
    intro p q r hpq hqr
    exact decide_eq_true (Nat.le_trans (of_decide_eq_true hpq) (of_decide_eq_true hqr))
  have htotal : ∀ p q : String,
      (decide (placeOf among p ≤ placeOf among q) || decide (placeOf among q ≤ placeOf among p)) = true := by
    intro p q
    rw [Bool.or_eq_true, decide_eq_true_eq, decide_eq_true_eq]
    exact Nat.le_total _ _
  exact (List.pairwise_mergeSort htrans htotal ids).imp of_decide_eq_true

/-- An order in which the keys of the adjacency may come up: the ids of the resources and the parents
they name. -/
structure PassOrder (resources : List Resource) (order : List String) : Prop where
  nodup : order.Nodup
  mem_iff : ∀ id, id ∈ order ↔ ∃ r ∈ resources, r.id = id ∨ r.parentId = some id

theorem passOrder_distinct (resources : List Resource) :
    PassOrder resources (distinct (resources.map (·.id) ++ resources.filterMap (·.parentId))) where
  nodup := nodup_distinct _
  mem_iff id := by
    rw [mem_distinct, List.mem_append, List.mem_map, List.mem_filterMap]
    constructor
    · rintro (⟨r, hr, hid⟩ | ⟨r, hr, hparent⟩)
      · exact ⟨r, hr, .inl hid⟩
      · exact ⟨r, hr, .inr hparent⟩
    · rintro ⟨r, hr, hid | hparent⟩
      · exact .inl ⟨r, hr, hid⟩
      · exact .inr ⟨r, hr, hparent⟩

theorem PassOrder.of_perm {resources : List Resource} {order other : List String}
    (h : PassOrder resources order) (hperm : order.Perm other) : PassOrder resources other where
  nodup := hperm.nodup h.nodup
  mem_iff id := hperm.mem_iff.symm.trans (h.mem_iff id)

namespace Store

variable (s : Store Resource)

theorem mem_parents_iff {parent id : String} :
    parent ∈ (Index.allParents s.records (Index.allChildren s.records)).idsOf id ↔
      id ∈ (Index.allChildren s.records).idsOf parent := by
  rw [idsOf_allParents_records, List.mem_append, mem_strangers_iff, List.mem_filter, decide_eq_true_eq]
  by_cases h : parent ∈ s.ids
  · simp [h]
  · simp [h]

theorem nodup_parents (id : String) :
    ((Index.allParents s.records (Index.allChildren s.records)).idsOf id).Nodup := by
  rw [idsOf_allParents_records]
  refine (s.nodup_strangers id).append (s.nodup_ids.filter _) fun parent hstranger hstored => ?_
  exact (s.mem_strangers_iff.1 hstranger).2 (List.mem_of_mem_filter hstored)

theorem pairwise_parents (id : String) :
    ((Index.allParents s.records (Index.allChildren s.records)).idsOf id).Pairwise
      fun p q => placeOf s.ids p ≤ placeOf s.ids q := by
  rw [idsOf_allParents_records, List.pairwise_append]
  refine ⟨?_, (pairwise_placeOf s.nodup_ids).filter _, ?_⟩
  · match h : s.strangers id with
    | [] => exact .nil
    | [p] => exact List.pairwise_singleton _ p
    | p :: q :: rest =>
      have hlength := s.length_strangers_le id
      rw [h] at hlength
      exact absurd hlength (by simp)
  · intro p hp q _
    rw [placeOf, if_neg (s.mem_strangers_iff.1 hp).2]
    exact Nat.zero_le _

theorem mem_of_child {order : List String} (h : PassOrder s.records order) {parent id : String}
    (hchild : id ∈ (Index.allChildren s.records).idsOf parent) : parent ∈ order := by
  rw [idsOf_allChildren_records, List.mem_append, List.mem_eraseDups] at hchild
  rw [h.mem_iff]
  rcases hchild with hdeclared | hnamed
  · cases hget : s.get? parent with
    | none =>
      rw [declared, hget] at hdeclared
      cases hdeclared
    | some r => exact ⟨r, s.mem_records_of_get? hget, .inl (id_of_get? hget)⟩
  · obtain ⟨r, hr, hparent⟩ := s.mem_named_iff.1 (List.mem_of_mem_filter hnamed)
    exact ⟨r, s.mem_records_of_get? hr, .inr hparent⟩

/-- In whatever order the adjacency is passed over, sorting gives the same parents. -/
theorem sortByPlace_turnedIn {order : List String} (h : PassOrder s.records order) (id : String) :
    sortByPlace s.ids ((Links.turnedIn order (Index.allChildren s.records).idsOf).idsOf id) =
      (Index.allParents s.records (Index.allChildren s.records)).idsOf id := by
  have hgathered := Links.idsOf_turnedIn (Index.nodup_idsOf_allChildren s.records) order id
  have hperm : (order.filter fun parent => id ∈ (Index.allChildren s.records).idsOf parent).Perm
      ((Index.allParents s.records (Index.allChildren s.records)).idsOf id) := by
    refine (List.perm_ext_iff_of_nodup (h.nodup.filter _) (s.nodup_parents id)).2 fun parent => ?_
    rw [mem_parents_iff, List.mem_filter, decide_eq_true_eq]
    exact ⟨And.right, fun hchild => ⟨s.mem_of_child h hchild, hchild⟩⟩
  rw [hgathered]
  refine List.Perm.eq_of_pairwise ?_ (pairwise_sortByPlace _ _) (s.pairwise_parents id)
    ((sortByPlace_perm _ _).trans hperm)
  -- Equal places make equal ids: of the resources by their places, of strangers since there is only one.
  intro p q hp hq hpq hqp
  have hplace := Nat.le_antisymm hpq hqp
  by_cases hpstored : p ∈ s.ids
  · exact eq_of_placeOf_eq hpstored hplace
  · by_cases hqstored : q ∈ s.ids
    · exact (eq_of_placeOf_eq hqstored hplace.symm).symm
    · have hp' := ((sortByPlace_perm _ _).trans hperm).mem_iff.1 hp
      rw [mem_parents_iff] at hp' hq
      exact s.eq_of_mem_strangers (s.mem_strangers_iff.2 ⟨hp', hpstored⟩)
        (s.mem_strangers_iff.2 ⟨hq, hqstored⟩)

end Store

section Spec

variable (resources : List Resource)

def declaredIn (id : String) : List String :=
  ((lastUnder resources id).map (·.childIds)).getD []

/-- The children of an id among the resources written: those it declares, then those that name it. -/
def childrenIn (id : String) : List String :=
  (declaredIn resources id).eraseDups ++
    (((survivors resources).filter (·.parentId == some id)).map (·.id)).filter
      fun child => child ∉ declaredIn resources id

end Spec

namespace Graph

def Fresh (g : Graph) : Prop :=
  g.index = .ofResources g.resources.records

variable {g : Graph}

theorem fresh_reindex (g : Graph) : g.reindex.Fresh :=
  rfl

theorem Fresh.childrenOf_eq (h : g.Fresh) (id : String) :
    g.childrenOf id = (Index.allChildren g.resources.records).idsOf id := by
  rw [Graph.childrenOf, h]
  rfl

theorem Fresh.parentsOf_eq (h : g.Fresh) (id : String) :
    g.parentsOf id =
      (Index.allParents g.resources.records (Index.allChildren g.resources.records)).idsOf id := by
  rw [Graph.parentsOf, h]
  rfl

theorem Fresh.topResources_eq (h : g.Fresh) :
    g.topResources = g.resources.records.filter (·.parentId == none) := by
  have htop :
      (g.resources.records.filter (·.isTopLevel)) = g.resources.records.filter (·.parentId == none) := by
    refine List.filter_congr fun r _ => ?_
    cases hparent : r.parentId <;> simp [Resource.isTopLevel, hparent]
  rw [Graph.topResources, h, ← htop]
  exact g.resources.getAll_map_id fun r hr => List.mem_of_mem_filter hr

theorem Fresh.resourcesOfType_eq (h : g.Fresh) (typeId : String) :
    g.resourcesOfType typeId = g.resources.records.filter (·.typeId == typeId) := by
  have hbyType : (Links.ofPairs (g.resources.records.map fun r => (r.typeId, r.id))).idsOf typeId =
      (g.resources.records.filter (·.typeId == typeId)).map (·.id) := by
    rw [Links.idsOf_ofPairs, List.filter_map, List.map_map]
    rfl
  rw [Graph.resourcesOfType, h]
  refine (congrArg g.resources.getAll hbyType).trans ?_
  exact g.resources.getAll_map_id fun r hr => List.mem_of_mem_filter hr

/-- What a graph with a fresh index answers, by the records that were written to it. -/
structure Derived (g : Graph) (resources : List Resource) (resourceTypes : List ResourceType)
    (metrics : List Metric) : Prop where
  resource? : ∀ id, g.resource? id = lastUnder resources id
  resourceType? : ∀ id, g.resourceType? id = lastUnder resourceTypes id
  metric? : ∀ id, g.metric? id = lastUnder metrics id
  allResourceTypes : g.allResourceTypes = survivors resourceTypes
  topResources : g.topResources = (survivors resources).filter (·.parentId == none)
  resourcesOfType : ∀ typeId, g.resourcesOfType typeId = (survivors resources).filter (·.typeId == typeId)
  childrenOf : ∀ id, g.childrenOf id = childrenIn resources id
  nodup_parentsOf : ∀ id, (g.parentsOf id).Nodup
  mem_parentsOf : ∀ id parent, parent ∈ g.parentsOf id ↔ id ∈ g.childrenOf parent
  /-- At most one parent is not stored. It comes before the others. -/
  parentsOf : ∀ id, ∃ strangers : List String, strangers.length ≤ 1 ∧
    (∀ parent ∈ strangers, g.resource? parent = none) ∧
    g.parentsOf id = strangers ++
      ((survivors resources).map (·.id)).filter fun parent => id ∈ g.childrenOf parent
  /-- The order in which a hash map yields the adjacency does not show. -/
  anyOrder : ∀ order, PassOrder (survivors resources) order → ∀ id,
    sortByPlace ((survivors resources).map (·.id)) ((Links.turnedIn order g.childrenOf).idsOf id) =
      g.parentsOf id

theorem derived_of_fresh {records : List GraphRecord} (h : Holds g records) (hfresh : g.Fresh) :
    Derived g (records.filterMap GraphRecord.resource?) (records.filterMap GraphRecord.resourceType?)
      (records.filterMap GraphRecord.metric?) := by
  have hrecords : g.resources.records = survivors (records.filterMap GraphRecord.resource?) := by
    rw [h.resources, Store.records_replay]
  have hids : (survivors (records.filterMap GraphRecord.resource?)).map (·.id) = g.resources.ids := by
    rw [← hrecords]
    exact g.resources.map_id_records
  have hget : ∀ id, g.resources.get? id = lastUnder (records.filterMap GraphRecord.resource?) id := by
    intro id
    rw [h.resources, Store.get?_replay]
  constructor
  case resource? => exact hget
  case resourceType? =>
    intro id
    rw [Graph.resourceType?, h.resourceTypes, Store.get?_replay]
  case metric? =>
    intro id
    rw [Graph.metric?, h.metrics, Store.get?_replay]
  case allResourceTypes => rw [Graph.allResourceTypes, h.resourceTypes, Store.records_replay]
  case topResources => rw [hfresh.topResources_eq, hrecords]
  case resourcesOfType =>
    intro typeId
    rw [hfresh.resourcesOfType_eq, hrecords]
  case childrenOf =>
    intro id
    rw [hfresh.childrenOf_eq, Store.idsOf_allChildren_records, childrenIn, Store.declared, declaredIn, hget,
      Store.named, hrecords]
  case nodup_parentsOf =>
    intro id
    rw [hfresh.parentsOf_eq]
    exact g.resources.nodup_parents id
  case mem_parentsOf =>
    intro id parent
    rw [hfresh.parentsOf_eq, hfresh.childrenOf_eq]
    exact g.resources.mem_parents_iff
  case parentsOf =>
    intro id
    refine ⟨g.resources.strangers id, g.resources.length_strangers_le id, ?_, ?_⟩
    · intro parent hparent
      have hnot := (g.resources.mem_strangers_iff.1 hparent).2
      rwa [Store.mem_ids_iff, Bool.not_eq_true, Option.isSome_eq_false_iff, Option.isNone_iff_eq_none] at hnot
    · rw [hfresh.parentsOf_eq, hids, Store.idsOf_allParents_records, funext hfresh.childrenOf_eq]
  case anyOrder =>
    intro order horder id
    rw [← hrecords] at horder
    rw [hids, hfresh.parentsOf_eq, funext hfresh.childrenOf_eq]
    exact g.resources.sortByPlace_turnedIn horder id

/-- Whatever was written, and wherever else an index was made, after a batch the graph answers by the
records written to it. -/
theorem derived_batch (writes : List Write) :
    Derived (empty.batch writes)
      ((writes.flatMap Write.records).filterMap GraphRecord.resource?)
      ((writes.flatMap Write.records).filterMap GraphRecord.resourceType?)
      ((writes.flatMap Write.records).filterMap GraphRecord.metric?) :=
  derived_of_fresh (holds_batch writes) (fresh_reindex _)

/-- A child that is stored twice, is declared twice, and names a parent that is not stored. -/
def adopted : List Write :=
  [.record (.resource (Resource.plain "child" "" "")), .reindex,
    .record (.resource { Resource.plain "host" "" "" with childIds := ["child", "child"] }),
    .record (.resource ((Resource.plain "child" "" "").withParent "ghost"))]

/-- The parent that is not stored comes first, also where the adjacency yields it last. -/
theorem derived_batch_adopted :
    (empty.batch adopted).parentsOf "child" = ["ghost", "host"] ∧
    sortByPlace ["child", "host"]
      ((Links.turnedIn ["host", "child", "ghost"] (empty.batch adopted).childrenOf).idsOf "child") =
        ["ghost", "host"] := by
  have hparents : (empty.batch adopted).parentsOf "child" = ["ghost", "host"] := by decide +kernel
  have hsurvivors : survivors ((adopted.flatMap Write.records).filterMap GraphRecord.resource?) =
      [(Resource.plain "child" "" "").withParent "ghost",
        { Resource.plain "host" "" "" with childIds := ["child", "child"] }] := by decide +kernel
  have horder : PassOrder (survivors ((adopted.flatMap Write.records).filterMap GraphRecord.resource?))
      ["host", "child", "ghost"] := by
    rw [hsurvivors]
    exact (passOrder_distinct _).of_perm (by decide +kernel)
  have hsorted := (derived_batch adopted).anyOrder _ horder "child"
  rw [hsurvivors, hparents] at hsorted
  exact ⟨hparents, hsorted⟩

end Graph

end Inventory

import Inventory.Proofs.Graph.Derived
import Inventory.Proofs.Graph.Trees
import Mathlib.Data.List.Perm.Basic

/-! # The order of insertion

Two graphs with the same records under the same ids may hold them in different orders. Then their listings and
links differ in order only, and so do their trees, at every level (`Adjacency.Unfolds.reordered`). Whether there is
a tree at all does not depend on the order, since a reordered tree has as many nodes and levels.
-/

namespace Inventory

theorem exists_forall₂ {α β : Type} {R S : α → β → Prop} {T : β → β → Prop} {as : List α} {bs : List β}
    (hstep : ∀ b ∈ bs, ∀ a, R a b → ∃ c, S a c ∧ T b c) (h : List.Forall₂ R as bs) :
    ∃ cs, List.Forall₂ S as cs ∧ List.Forall₂ T bs cs := by
  induction h with
  | nil => exact ⟨[], .nil, .nil⟩
  | cons hab _ ih =>
    rw [List.forall_mem_cons] at hstep
    obtain ⟨c, hac, hbc⟩ := hstep.1 _ hab
    obtain ⟨cs, hacs, hbcs⟩ := ih hstep.2
    exact ⟨c :: cs, .cons hac hacs, .cons hbc hbcs⟩

theorem map_eq_of_forall₂ {α β : Type} {T : α → α → Prop} {f : α → β} {as bs : List α}
    (hstep : ∀ a ∈ as, ∀ b, T a b → f a = f b) (h : List.Forall₂ T as bs) : as.map f = bs.map f := by
  induction h with
  | nil => rfl
  | cons hab _ ih =>
    rw [List.forall_mem_cons] at hstep
    rw [List.map_cons, List.map_cons, hstep.1 _ hab, ih hstep.2]

namespace ResourceNode

/-- The same tree up to the order of siblings, at every level. -/
inductive Reordered : ResourceNode → ResourceNode → Prop where
  | node {id name typeId : String} {cs ds es : List ResourceNode} (below : List.Forall₂ Reordered cs ds)
      (order : ds.Perm es) : Reordered (.node id name typeId cs) (.node id name typeId es)

theorem countAll_eq_foldr (cs : List ResourceNode) : countAll cs = (cs.map count).foldr (· + ·) 0 := by
  induction cs with
  | nil => rfl
  | cons c rest ih => rw [countAll, ih, List.map_cons, List.foldr_cons]

theorem levelsAll_eq_foldr (cs : List ResourceNode) : levelsAll cs = (cs.map levels).foldr max 0 := by
  induction cs with
  | nil => rfl
  | cons c rest ih => rw [levelsAll, ih, List.map_cons, List.foldr_cons]

theorem Reordered.count_eq {t u : ResourceNode} (h : t.Reordered u) : t.count = u.count := by
  induction t using ResourceNode.induct generalizing u with
  | node _ _ _ children ih =>
    cases h with
    | node below order =>
      rw [count, count, countAll_eq_foldr, countAll_eq_foldr, map_eq_of_forall₂ (fun c hc _ h => ih c hc h) below,
        (order.map count).foldr_eq]

theorem Reordered.levels_eq {t u : ResourceNode} (h : t.Reordered u) : t.levels = u.levels := by
  induction t using ResourceNode.induct generalizing u with
  | node _ _ _ children ih =>
    cases h with
    | node below order =>
      rw [levels, levels, levelsAll_eq_foldr, levelsAll_eq_foldr,
        map_eq_of_forall₂ (fun c hc _ h => ih c hc h) below, (order.map levels).foldr_eq]

end ResourceNode

theorem TreeLimits.Admits.of_reordered {limits : TreeLimits} {t u : ResourceNode} (h : limits.Admits t)
    (hu : t.Reordered u) : limits.Admits u :=
  ⟨hu.count_eq ▸ h.count_le, hu.levels_eq ▸ h.levels_le⟩

namespace Adjacency

structure Alike (a b : Adjacency) : Prop where
  resource?_eq : ∀ id, a.resource? id = b.resource? id
  children_perm : ∀ id, (a.children id).Perm (b.children id)

variable {a b : Adjacency}

theorem Alike.symm (h : Alike a b) : Alike b a :=
  ⟨fun id => (h.resource?_eq id).symm, fun id => (h.children_perm id).symm⟩

theorem Alike.stored_perm (h : Alike a b) (id : String) :
    (a.stored (a.children id)).Perm (b.stored (b.children id)) := by
  have hsame : a.stored (b.children id) = b.stored (b.children id) :=
    List.filter_congr fun other _ => by rw [h.resource?_eq]
  exact hsame ▸ (h.children_perm id).filter _

theorem Unfolds.reordered {id : String} {t : ResourceNode} (hab : Alike a b) (h : a.Unfolds id t) :
    ∃ u, b.Unfolds id u ∧ t.Reordered u := by
  induction t using ResourceNode.induct generalizing id with
  | node _ _ _ children ih =>
    cases h with
    | @node _ r _ found below =>
      obtain ⟨us, hus, hchildren⟩ := exists_forall₂ (fun c hc _ h => ih c hc h) below
      obtain ⟨vs, hvs, horder⟩ := List.perm_comp_forall₂ (hab.stored_perm id).symm hus
      rw [hab.resource?_eq] at found
      exact ⟨_, .node found hvs, .node hchildren horder.symm⟩

end Adjacency

section BuildTree

variable {a b : Adjacency} {limits : TreeLimits} {root : String} {t : ResourceNode}

theorem buildTree_eq_none_iff (ha : a.Keyed) :
    (buildTree a limits root).result = .ok none ↔ a.resource? root = none := by
  constructor
  · intro h
    cases hroot : a.resource? root with
    | none => rfl
    | some r =>
      obtain ⟨result, -, heq⟩ := exists_ending ha hroot limits
      rw [heq] at h
      cases result <;> cases h
  · intro h
    exact buildTree_of_none h limits

theorem Adjacency.Unfolds.of_result (ha : a.Keyed) (h : (buildTree a limits root).result = .ok (some t)) :
    a.Unfolds root t ∧ limits.Admits t := by
  cases hroot : a.resource? root with
  | none =>
    rw [buildTree_of_none hroot] at h
    cases h
  | some r =>
    obtain ⟨result, hending, heq⟩ := exists_ending ha hroot limits
    rw [heq] at h
    cases hending with
    | tree unfolds count_le levels_le =>
      cases h
      exact ⟨unfolds, count_le, levels_le⟩
    | cycle _ => cases h
    | deep _ => cases h
    | full _ => cases h

theorem buildTree_reordered (ha : a.Keyed) (hb : b.Keyed) (hab : a.Alike b)
    (h : (buildTree a limits root).result = .ok (some t)) :
    ∃ u, (buildTree b limits root).result = .ok (some u) ∧ t.Reordered u := by
  obtain ⟨hunfolds, hadmits⟩ := Adjacency.Unfolds.of_result ha h
  obtain ⟨u, hu, hreordered⟩ := hunfolds.reordered hab
  exact ⟨u, buildTree_of_unfolds hb hu (hadmits.of_reordered hreordered), hreordered⟩

end BuildTree

namespace Store

variable {α : Type} [HasId α] {s t : Store α}

theorem ids_perm (h : ∀ id, s.get? id = t.get? id) : s.ids.Perm t.ids := by
  refine (List.perm_ext_iff_of_nodup s.nodup_ids t.nodup_ids).2 fun id => ?_
  rw [mem_ids_iff, mem_ids_iff, h]

theorem records_perm (h : ∀ id, s.get? id = t.get? id) : s.records.Perm t.records := by
  have hget : s.get? = t.get? := funext h
  rw [records, records, getAll, getAll, hget]
  exact (ids_perm h).filterMap _

end Store

namespace Store

variable {s t : Store Resource}

theorem named_perm (h : ∀ id, s.get? id = t.get? id) (id : String) : (s.named id).Perm (t.named id) :=
  ((records_perm h).filter _).map _

theorem declared_eq (h : ∀ id, s.get? id = t.get? id) (id : String) : s.declared id = t.declared id := by
  rw [declared, declared, h]

/-- What stands behind the declared children are the same ids. -/
theorem others_perm (h : ∀ id, s.get? id = t.get? id) (id : String) :
    ((s.named id).filter fun child => child ∉ s.declared id).Perm
      ((t.named id).filter fun child => child ∉ t.declared id) := by
  rw [declared_eq h]
  exact (named_perm h id).filter _

theorem children_perm (h : ∀ id, s.get? id = t.get? id) (id : String) :
    ((Index.allChildren s.records).idsOf id).Perm ((Index.allChildren t.records).idsOf id) := by
  rw [idsOf_allChildren_records, idsOf_allChildren_records, declared_eq h]
  exact (declared_eq h id ▸ others_perm h id).append_left _

theorem parents_perm (h : ∀ id, s.get? id = t.get? id) (id : String) :
    ((Index.allParents s.records (Index.allChildren s.records)).idsOf id).Perm
      ((Index.allParents t.records (Index.allChildren t.records)).idsOf id) := by
  refine (List.perm_ext_iff_of_nodup (s.nodup_parents id) (t.nodup_parents id)).2 fun parent => ?_
  rw [mem_parents_iff, mem_parents_iff]
  exact (children_perm h parent).mem_iff

end Store

namespace Graph

/-- Two graphs that answer alike, but for the order of what they list. -/
structure SameButOrder (g other : Graph) : Prop where
  resource? : ∀ id, g.resource? id = other.resource? id
  topResources : (g.topResources.map (·.id)).Nodup ∧ g.topResources.Perm other.topResources
  resourcesOfType : ∀ typeId, ((g.resourcesOfType typeId).map (·.id)).Nodup ∧
    (g.resourcesOfType typeId).Perm (other.resourcesOfType typeId)
  childrenOf : ∀ id, (g.childrenOf id).Nodup ∧ (g.childrenOf id).Perm (other.childrenOf id)
  /-- The children that a resource declares come first, in the order in which it declares them. -/
  declared : ∀ id, ∃ named named' : List String,
    g.childrenOf id = (((g.resource? id).map (·.childIds)).getD []).eraseDups ++ named ∧
    other.childrenOf id = (((g.resource? id).map (·.childIds)).getD []).eraseDups ++ named' ∧
    named.Perm named'
  parentsOf : ∀ id, (g.parentsOf id).Nodup ∧ (g.parentsOf id).Perm (other.parentsOf id)
  tree?_eq_none_iff : ∀ limits root, g.tree? limits root = .ok none ↔ other.tree? limits root = .ok none
  exists_tree?_iff : ∀ limits root,
    (∃ t, g.tree? limits root = .ok (some t)) ↔ ∃ t, other.tree? limits root = .ok (some t)
  tree?_reordered : ∀ limits root t u, g.tree? limits root = .ok (some t) →
    other.tree? limits root = .ok (some u) → t.Reordered u

variable {g other : Graph}

theorem Fresh.alike (hg : g.Fresh) (hother : other.Fresh) (h : ∀ id, g.resource? id = other.resource? id) :
    g.adjacency.Alike other.adjacency where
  resource?_eq := h
  children_perm id := by
    have hchildren : (g.childrenOf id).Perm (other.childrenOf id) := by
      rw [hg.childrenOf_eq, hother.childrenOf_eq]
      exact Store.children_perm h id
    exact hchildren

theorem Fresh.sameButOrder (hg : g.Fresh) (hother : other.Fresh)
    (h : ∀ id, g.resource? id = other.resource? id) : SameButOrder g other := by
  have hids : (g.resources.records.map (·.id)).Nodup := g.resources.map_id_records ▸ g.resources.nodup_ids
  have hrecords : g.resources.records.Perm other.resources.records := Store.records_perm h
  have halike := hg.alike hother h
  constructor
  case resource? => exact h
  case topResources =>
    rw [hg.topResources_eq, hother.topResources_eq]
    exact ⟨hids.sublist (List.filter_sublist.map _), hrecords.filter _⟩
  case resourcesOfType =>
    intro typeId
    rw [hg.resourcesOfType_eq, hother.resourcesOfType_eq]
    exact ⟨hids.sublist (List.filter_sublist.map _), hrecords.filter _⟩
  case childrenOf =>
    intro id
    refine ⟨?_, halike.children_perm id⟩
    rw [hg.childrenOf_eq]
    exact Index.nodup_idsOf_allChildren _ id
  case declared =>
    intro id
    refine ⟨_, _, ?_, ?_, Store.others_perm h id⟩
    · rw [hg.childrenOf_eq, Store.idsOf_allChildren_records]
      rfl
    · rw [hother.childrenOf_eq, Store.idsOf_allChildren_records, h]
      rfl
  case parentsOf =>
    intro id
    rw [hg.parentsOf_eq, hother.parentsOf_eq]
    exact ⟨g.resources.nodup_parents id, Store.parents_perm h id⟩
  case tree?_eq_none_iff =>
    intro limits root
    rw [tree?, tree?, buildTree_eq_none_iff g.keyed_adjacency, buildTree_eq_none_iff other.keyed_adjacency,
      halike.resource?_eq]
  case exists_tree?_iff =>
    intro limits root
    constructor
    · rintro ⟨t, ht⟩
      obtain ⟨u, hu, -⟩ := buildTree_reordered g.keyed_adjacency other.keyed_adjacency halike ht
      exact ⟨u, hu⟩
    · rintro ⟨u, hu⟩
      obtain ⟨t, ht, -⟩ := buildTree_reordered other.keyed_adjacency g.keyed_adjacency halike.symm hu
      exact ⟨t, ht⟩
  case tree?_reordered =>
    intro limits root t u ht hu
    obtain ⟨v, hv, hreordered⟩ := buildTree_reordered g.keyed_adjacency other.keyed_adjacency halike ht
    rw [tree?, hv] at hu
    cases hu
    exact hreordered

theorem resource?_addResources (rs : List Resource) (id : String) :
    (empty.addResources rs).resource? id = lastUnder rs id := by
  have hrecords : ((rs.map fun r => Write.record (.resource r)).flatMap Write.records).filterMap
      GraphRecord.resource? = rs := by
    induction rs with
    | nil => rfl
    | cons r rest ih => exact congrArg (r :: ·) ih
  rw [addResources, (derived_of_fresh (holds_batch _) (fresh_reindex _)).resource?, hrecords]

/-- Resources with ids of their own may be added in any order: listings, links and the siblings in a tree come in
another order then, and nothing else changes. -/
theorem addResources_perm {rs rs' : List Resource} (h : rs.Perm rs') (hids : (rs.map (·.id)).Nodup) :
    SameButOrder (empty.addResources rs) (empty.addResources rs') := by
  refine Fresh.sameButOrder (fresh_reindex _) (fresh_reindex _) fun id => ?_
  have hids' : (rs'.map (·.id)).Nodup := (h.map _).nodup hids
  rw [resource?_addResources, resource?_addResources]
  apply Option.ext
  intro r
  rw [lastUnder_eq_some_iff hids, lastUnder_eq_some_iff hids', h.mem_iff]

/-- A yard with a gate that it declares, and with a shed and a wall that name it. -/
def yard : List Resource :=
  [(Resource.plain "shed" "" "").withParent "yard", { Resource.plain "yard" "" "" with childIds := ["gate"] },
    (Resource.plain "wall" "" "").withParent "yard", Resource.plain "gate" "" ""]

def yardTree (childIds : List String) : ResourceNode :=
  .node "yard" "" "" (childIds.map fun id => .node id "" "" [])

theorem tree?_yard {rs : List Resource} {childIds : List String}
    (hroot : (empty.addResources rs).resource? "yard" =
      some { Resource.plain "yard" "" "" with childIds := ["gate"] })
    (hrun : Walk.resultWithin (empty.addResources rs).adjacency .standard "yard" 7
      (.start (empty.addResources rs).adjacency { Resource.plain "yard" "" "" with childIds := ["gate"] }) =
        some (.ok (yardTree childIds))) :
    (empty.addResources rs).tree? .standard "yard" = .ok (some (yardTree childIds)) := by
  rw [tree?, buildTree_of_resultWithin hroot hrun]
  rfl

theorem addResources_perm_yard :
    yard.Perm yard.reverse ∧ (yard.map (·.id)).Nodup ∧
    (yardTree ["gate", "shed", "wall"]).Reordered (yardTree ["gate", "wall", "shed"]) ∧
    ((empty.addResources yard).childrenOf "yard").Perm ["gate", "wall", "shed"] := by
  have hperm : yard.Perm yard.reverse := (List.reverse_perm yard).symm
  have hids : (yard.map (·.id)).Nodup := by decide
  have hsame := addResources_perm hperm hids
  have hfirst : (empty.addResources yard).tree? .standard "yard" =
      .ok (some (yardTree ["gate", "shed", "wall"])) := tree?_yard (by decide +kernel) (by decide +kernel)
  have hsecond : (empty.addResources yard.reverse).tree? .standard "yard" =
      .ok (some (yardTree ["gate", "wall", "shed"])) := tree?_yard (by decide +kernel) (by decide +kernel)
  have hchildren : (empty.addResources yard.reverse).childrenOf "yard" = ["gate", "wall", "shed"] := by
    decide +kernel
  exact ⟨hperm, hids, hsame.tree?_reordered _ _ _ _ hfirst hsecond, hchildren ▸ (hsame.childrenOf "yard").2⟩

end Graph

end Inventory

import Inventory.Proofs.Path.Parts
import Inventory.Proofs.Snapshot.Lineage
import Mathlib.Data.List.Nodup

/-! # Trails

`Structure.trails` lists the nodes in document order, each with the segments that lead to it. Where siblings
can be told apart, the path of a node leads to it again (`Addressed.resolve?_relative`) and no two nodes have
the same path.
-/

namespace Inventory.Structure

/-- Siblings of one kind have different ids, and only the root may have an empty one. -/
structure Addressed (tree : Structure) : Prop where
  distinct : ∀ s ∈ tree.nodes,
    s.children.Pairwise fun a b => a.entity.kind = b.entity.kind → a.entity.id ≠ b.entity.id
  named : ∀ s ∈ tree.nodes, ∀ c ∈ s.children, c.entity.id ≠ ""

mutual

/-- The nodes in document order, each with the segments that lead to it. -/
def trails : Structure → List (List Path.Segment × Structure)
  | .node entity children => ([], .node entity children) :: trailsBelow children

def trailsBelow : List Structure → List (List Path.Segment × Structure)
  | [] => []
  | s :: rest => (trails s).map (Prod.map (s.entity.segment :: ·) id) ++ trailsBelow rest

end

variable {tree s c x : Structure} {trail : List Path.Segment}

theorem trailsBelow_eq (children : List Structure) :
    trailsBelow children =
      children.flatMap fun c => c.trails.map (Prod.map (c.entity.segment :: ·) id) := by
  induction children with
  | nil => rfl
  | cons c rest ih => rw [trailsBelow, ih, List.flatMap_cons]

theorem trails_eq (s : Structure) :
    s.trails = ([], s) :: s.children.flatMap fun c => c.trails.map (Prod.map (c.entity.segment :: ·) id) := by
  cases s with
  | node entity children => rw [trails, trailsBelow_eq, Structure.children]

theorem mem_trails_iff {p : List Path.Segment × Structure} :
    p ∈ s.trails ↔ p = ([], s) ∨ ∃ c ∈ s.children, ∃ q ∈ c.trails, (c.entity.segment :: q.1, q.2) = p := by
  rw [trails_eq, List.mem_cons, List.mem_flatMap]
  simp only [List.mem_map]
  rfl

theorem map_snd_trails (s : Structure) : s.trails.map Prod.snd = s.nodes := by
  induction s using Structure.induct with
  | node entity children ih =>
    rw [trails_eq, nodes_eq, List.map_cons, List.map_flatMap]
    refine congrArg _ (List.flatMap_congr ?_)
    intro c hc
    rw [List.map_map, ← ih c hc]
    rfl

theorem map_fst_trails (s : Structure) :
    s.trails.map Prod.fst =
      [] :: s.children.flatMap fun c => (c.trails.map Prod.fst).map (c.entity.segment :: ·) := by
  rw [trails_eq, List.map_cons, List.map_flatMap]
  simp only [List.map_map]
  rfl

theorem extend_relative (start : List Path.Segment) (segment : Path.Segment) :
    extend (Path.relative start) segment = Path.relative (start ++ [segment]) := by
  by_cases h : start = []
  · subst h
    exact (String.intercalate_singleton).symm
  · have hstart : start.map Path.Segment.render ≠ [] := mt List.map_eq_nil_iff.1 h
    have hsegment : [segment].map Path.Segment.render ≠ [] := List.cons_ne_nil _ _
    rw [extend, if_neg (Path.relative_ne_empty h), Path.relative, Path.relative, List.map_append,
      String.intercalate_append_of_ne_nil hstart hsegment, List.map_singleton, String.intercalate_singleton]

theorem locatedBelow_eq (path : String) (children : List Structure) :
    locatedBelow path children = children.flatMap fun c => c.locatedFrom (extend path c.entity.segment) := by
  induction children with
  | nil => rfl
  | cons c rest ih =>
    cases c with
    | node entity below => rw [locatedBelow, ih, List.flatMap_cons, Structure.entity]

theorem locatedFrom_relative (s : Structure) (start : List Path.Segment) :
    s.locatedFrom (Path.relative start) =
      s.trails.map fun p => (Path.relative (start ++ p.1), p.2.entity) := by
  induction s using Structure.induct generalizing start with
  | node entity children ih =>
    rw [locatedFrom, locatedBelow_eq, trails_eq, List.map_cons, List.append_nil, List.map_flatMap]
    refine congrArg _ (List.flatMap_congr ?_)
    intro c hc
    rw [extend_relative, ih c hc, List.map_map]
    refine List.map_congr_left ?_
    intro p _
    rw [List.append_assoc]
    rfl

theorem located_eq (s : Structure) :
    s.located = s.trails.map fun p => (Path.relative p.1, p.2.entity) :=
  s.locatedFrom_relative []

theorem entities_eq (s : Structure) : s.entities = s.nodes.map (·.entity) := by
  rw [entities, located_eq, ← map_snd_trails, List.map_map, List.map_map]
  rfl

namespace Addressed

theorem child (h : s.Addressed) (hc : c ∈ s.children) : c.Addressed where
  distinct x hx := h.distinct x (mem_nodes_of_child hc hx)
  named x hx := h.named x (mem_nodes_of_child hc hx)

theorem child?_eq (h : s.Addressed) (hc : c ∈ s.children) :
    s.child? c.entity.kind c.entity.id = some c := by
  have hdistinct := h.distinct s (self_mem_nodes s)
  obtain ⟨before, after, hsplit⟩ := List.append_of_mem hc
  rw [hsplit, List.pairwise_append] at hdistinct
  rw [child?, hsplit, List.find?_append, List.find?_eq_none.2, Option.none_or, List.find?_cons_of_pos]
  · rw [beq_self_eq_true, beq_self_eq_true]
    rfl
  · intro x hx hkey
    rw [Bool.and_eq_true, beq_iff_eq, beq_iff_eq] at hkey
    exact hdistinct.2.2 x hx c List.mem_cons_self hkey.1 hkey.2

theorem proper (h : s.Addressed) (hmem : (trail, x) ∈ s.trails) : ∀ segment ∈ trail, segment.Proper := by
  induction s using Structure.induct generalizing trail with
  | node entity children ih =>
    rcases mem_trails_iff.1 hmem with hmem | ⟨c, hc, ⟨rest, y⟩, hrest, heq⟩
    · cases hmem
      exact List.forall_mem_nil _
    · cases heq
      rw [List.forall_mem_cons]
      exact ⟨c.entity.kind.proper_segment (h.named _ (self_mem_nodes _) c hc), ih c hc (h.child hc) hrest⟩

/-- Followed from the root, a trail ends at its node. -/
theorem foldlM_follow? (h : s.Addressed) (hmem : (trail, x) ∈ s.trails) :
    (trail.map fun segment => segment.render.toList).foldlM follow? s = some x := by
  induction s using Structure.induct generalizing trail with
  | node entity children ih =>
    rcases mem_trails_iff.1 hmem with hmem | ⟨c, hc, ⟨rest, y⟩, hrest, heq⟩
    · cases hmem
      rfl
    · cases heq
      have hproper := h.proper hmem
      rw [List.forall_mem_cons] at hproper
      have hstep : follow? (.node entity children) c.entity.segment.render.toList = some c := by
        rw [follow?, hproper.1.ofPart?_render]
        exact (congrArg (Option.bind · _) (EntityKind.ofCode?_code _)).trans (h.child?_eq hc)
      rw [List.map_cons, List.foldlM_cons, hstep]
      exact ih c hc (h.child hc) hrest

theorem resolve?_relative (h : s.Addressed) (hmem : (trail, x) ∈ s.trails) :
    s.resolve? (Path.relative trail) = some x := by
  have hfollow := h.foldlM_follow? hmem
  by_cases hroot : trail = []
  · subst hroot
    exact hfollow
  · rw [resolve?, if_neg (Path.relative_ne_empty hroot), Path.splitPath_relative hroot (h.proper hmem), hfollow]

theorem nodup_trails (h : s.Addressed) : (s.trails.map Prod.fst).Nodup := by
  induction s using Structure.induct with
  | node entity children ih =>
    rw [map_fst_trails, List.nodup_cons, List.nodup_flatMap]
    refine ⟨?_, ?_, ?_⟩
    · intro hmem
      obtain ⟨c, -, hmem⟩ := List.mem_flatMap.1 hmem
      obtain ⟨trail, -, hnil⟩ := List.mem_map.1 hmem
      cases hnil
    · intro c hc
      exact (ih c hc (h.child hc)).map List.cons_injective
    · refine (h.distinct _ (self_mem_nodes _)).imp ?_
      intro a b hab trail ha hb
      obtain ⟨rest, -, rfl⟩ := List.mem_map.1 ha
      obtain ⟨other, -, heq⟩ := List.mem_map.1 hb
      obtain ⟨hkind, hid⟩ := EntityKind.segment_inj.1 (List.cons.inj heq).1
      exact hab hkind.symm hid.symm

theorem nodup_located (h : tree.Addressed) : (tree.located.map Prod.fst).Nodup := by
  have hpaths : tree.located.map Prod.fst = (tree.trails.map Prod.fst).map Path.relative := by
    rw [located_eq, List.map_map, List.map_map]
    rfl
  rw [hpaths]
  refine h.nodup_trails.map_on ?_
  intro a ha b hb heq
  obtain ⟨⟨_, x⟩, hx, rfl⟩ := List.mem_map.1 ha
  obtain ⟨⟨_, y⟩, hy, rfl⟩ := List.mem_map.1 hb
  exact Path.relative_injective (h.proper hx) (h.proper hy) heq

/-- Each entity is found under the path that it is listed with. -/
theorem resolve?_located (h : tree.Addressed) {path : String} {entity : Entity}
    (hmem : (path, entity) ∈ tree.located) : (tree.resolve? path).map (·.entity) = some entity := by
  rw [located_eq] at hmem
  obtain ⟨⟨trail, x⟩, hx, heq⟩ := List.mem_map.1 hmem
  cases heq
  rw [h.resolve?_relative hx]
  rfl

end Addressed

end Inventory.Structure

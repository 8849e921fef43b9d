import Inventory.Snapshot.Structure
import Mathlib.Data.List.Chain
import Mathlib.Data.List.Flatten

/-! # Lineages

`Structure.lineage` lists the nodes of a structure in document order, each with the nodes above it. The
`outermost` resources are those that no other resource stands over: `lineage` finds them by looking upwards,
`outermost` by going down from the root (`mem_outermostAll_iff`).
-/

namespace Inventory.Structure

@[elab_as_elim]
theorem induct {motive : Structure → Prop}
    (node : ∀ entity children, (∀ c ∈ children, motive c) → motive (.node entity children))
    (s : Structure) : motive s :=
  @rec motive (fun children => ∀ c ∈ children, motive c) node (List.forall_mem_nil _)
    (fun _ _ hc hrest => List.forall_mem_cons.2 ⟨hc, hrest⟩) s

mutual

/-- The nodes in document order, each with the nodes above it, the nearest first. -/
def lineageUnder (above : List Structure) : Structure → List (List Structure × Structure)
  | .node entity children =>
    (above, .node entity children) :: lineageBelow (.node entity children :: above) children

def lineageBelow (above : List Structure) : List Structure → List (List Structure × Structure)
  | [] => []
  | s :: rest => lineageUnder above s ++ lineageBelow above rest

end

def lineage (s : Structure) : List (List Structure × Structure) :=
  s.lineageUnder []

def nodes (s : Structure) : List Structure :=
  s.lineage.map Prod.snd

def isResource (s : Structure) : Bool :=
  s.entity.kind == .resource

def resources (s : Structure) : List Structure :=
  s.nodes.filter (·.isResource)

mutual

def outermost : Structure → List Structure
  | .node entity children =>
    if entity.kind = .resource then [.node entity children] else outermostAll children

def outermostAll : List Structure → List Structure
  | [] => []
  | s :: rest => outermost s ++ outermostAll rest

end

theorem lineageBelow_eq (above children : List Structure) :
    lineageBelow above children = children.flatMap (lineageUnder above) := by
  induction children with
  | nil => rfl
  | cons c rest ih => rw [lineageBelow, ih, List.flatMap_cons]

theorem outermostAll_eq (children : List Structure) :
    outermostAll children = children.flatMap outermost := by
  induction children with
  | nil => rfl
  | cons c rest ih => rw [outermostAll, ih, List.flatMap_cons]

theorem lineageUnder_eq (above : List Structure) (s : Structure) :
    s.lineageUnder above = (above, s) :: s.children.flatMap (lineageUnder (s :: above)) := by
  cases s with
  | node entity children => rw [lineageUnder, lineageBelow_eq, Structure.children]

theorem outermost_of_resource {s : Structure} (h : s.isResource) : s.outermost = [s] := by
  cases s with
  | node entity children => exact if_pos (beq_iff_eq.1 h)

theorem outermost_of_not_resource {s : Structure} (h : ¬ s.isResource) :
    s.outermost = outermostAll s.children := by
  cases s with
  | node entity children => exact if_neg (mt beq_iff_eq.2 h)

theorem map_snd_lineageUnder (above : List Structure) (s : Structure) :
    (s.lineageUnder above).map Prod.snd = s.nodes := by
  rw [nodes, lineage]
  generalize [] = other
  induction s using Structure.induct generalizing above other with
  | node entity children ih =>
    rw [lineageUnder_eq, lineageUnder_eq, List.map_cons, List.map_cons, List.map_flatMap, List.map_flatMap]
    refine congrArg _ (List.flatMap_congr ?_)
    intro c hc
    exact ih c hc _ _

theorem nodes_eq (s : Structure) : s.nodes = s :: s.children.flatMap nodes := by
  rw [nodes, lineage, lineageUnder_eq, List.map_cons, List.map_flatMap]
  simp only [map_snd_lineageUnder]

theorem self_mem_nodes (s : Structure) : s ∈ s.nodes := by
  rw [nodes_eq]
  exact List.mem_cons_self

theorem mem_nodes_of_child {s c x : Structure} (hc : c ∈ s.children) (hx : x ∈ c.nodes) : x ∈ s.nodes := by
  rw [nodes_eq]
  exact List.mem_cons_of_mem _ (List.mem_flatMap_of_mem hc hx)

theorem resources_eq (s : Structure) :
    s.resources = (if s.isResource then [s] else []) ++ s.children.flatMap resources := by
  rw [resources, nodes_eq, List.filter_cons, List.filter_flatMap]
  split <;> rfl

theorem mem_resources_iff {s x : Structure} : x ∈ s.resources ↔ x ∈ s.nodes ∧ x.isResource :=
  List.mem_filter

theorem mem_resources_of_child {s c x : Structure} (hc : c ∈ s.children) (hx : x ∈ c.resources) :
    x ∈ s.resources := by
  rw [resources_eq]
  exact List.mem_append_right _ (List.mem_flatMap_of_mem hc hx)

theorem self_mem_resources {s : Structure} (h : s.isResource) : s ∈ s.resources := by
  rw [resources_eq, if_pos h]
  exact List.mem_append_left _ (List.mem_singleton_self s)

/-- Every resource stands at or below one outermost resource. -/
theorem flatMap_outermost (s : Structure) : s.outermost.flatMap resources = s.resources := by
  induction s using Structure.induct with
  | node entity children ih =>
    by_cases h : (Structure.node entity children).isResource
    · rw [outermost_of_resource h, List.flatMap_singleton]
    · rw [outermost_of_not_resource h, outermostAll_eq, List.flatMap_assoc, resources_eq, if_neg h,
        List.nil_append]
      exact List.flatMap_congr ih

theorem resources_eq_cons {s : Structure} (h : s.isResource) :
    s.resources = s :: (outermostAll s.children).flatMap resources := by
  rw [resources_eq, if_pos h, outermostAll_eq, List.flatMap_assoc, List.singleton_append]
  refine congrArg _ (List.flatMap_congr ?_)
  intro c _
  exact (flatMap_outermost c).symm

theorem outermost_sublist (s : Structure) : s.outermost.Sublist s.resources := by
  induction s using Structure.induct with
  | node entity children ih =>
    by_cases h : (Structure.node entity children).isResource
    · rw [outermost_of_resource h, List.singleton_sublist]
      exact self_mem_resources h
    · rw [outermost_of_not_resource h, outermostAll_eq, resources_eq, if_neg h, List.nil_append]
      exact List.Sublist.flatMap_right children ih

theorem outermostAll_sublist {s : Structure} : (outermostAll s.children).Sublist s.resources := by
  rw [outermostAll_eq, resources_eq]
  have hbelow := List.Sublist.flatMap_right s.children fun c _ => outermost_sublist c
  exact hbelow.trans (List.sublist_append_right _ _)

theorem filter_isResource_sublist (children : List Structure) :
    (children.filter (·.isResource)).Sublist (outermostAll children) := by
  induction children with
  | nil => exact .slnil
  | cons c rest ih =>
    rw [outermostAll, List.filter_cons]
    split
    · next h =>
      rw [outermost_of_resource h]
      exact ih.cons_cons c
    · exact ih.trans (List.sublist_append_right _ _)

theorem nodes_sublist {s x : Structure} (h : x ∈ s.nodes) : x.nodes.Sublist s.nodes := by
  induction s using Structure.induct with
  | node entity children ih =>
    rw [nodes_eq] at h
    rcases List.mem_cons.1 h with rfl | h
    · exact .refl _
    · obtain ⟨c, hc, hx⟩ := List.mem_flatMap.1 h
      rw [nodes_eq (.node entity children)]
      have hmem := List.sublist_flatten_of_mem (List.mem_map_of_mem (f := nodes) hc)
      exact ((ih c hc hx).trans hmem).cons _

theorem resources_sublist {s x : Structure} (h : x ∈ s.nodes) : x.resources.Sublist s.resources :=
  (nodes_sublist h).filter _

def nearest? (above : List Structure) : Option Structure :=
  above.find? (·.isResource)

theorem mem_lineageUnder_iff {above : List Structure} {s : Structure} {p : List Structure × Structure} :
    p ∈ s.lineageUnder above ↔ p = (above, s) ∨ ∃ c ∈ s.children, p ∈ c.lineageUnder (s :: above) := by
  rw [lineageUnder_eq, List.mem_cons, List.mem_flatMap]

theorem mem_nodes_iff {s x : Structure} : x ∈ s.nodes ↔ ∃ above, (above, x) ∈ s.lineage := by
  rw [nodes, List.mem_map]
  constructor
  · rintro ⟨⟨above, _⟩, h, rfl⟩
    exact ⟨above, h⟩
  · rintro ⟨above, h⟩
    exact ⟨(above, x), h, rfl⟩

theorem mem_resources_iff_lineage {s x : Structure} :
    x ∈ s.resources ↔ x.isResource ∧ ∃ above, (above, x) ∈ s.lineage := by
  rw [mem_resources_iff, mem_nodes_iff, and_comm]

theorem child_mem_lineageUnder {top above : List Structure} {s x c : Structure}
    (hx : (above, x) ∈ s.lineageUnder top) (hc : c ∈ x.children) :
    (x :: above, c) ∈ s.lineageUnder top := by
  induction s using Structure.induct generalizing top with
  | node entity children ih =>
    rw [mem_lineageUnder_iff] at hx ⊢
    rcases hx with hx | ⟨d, hd, hx⟩
    · cases hx
      exact .inr ⟨c, hc, mem_lineageUnder_iff.2 (.inl rfl)⟩
    · exact .inr ⟨d, hd, ih d hd hx⟩

theorem isChain_lineageUnder {top above : List Structure} {s x : Structure}
    (hx : (above, x) ∈ s.lineageUnder top) (htop : (s :: top).IsChain fun c p => c ∈ p.children) :
    (x :: above).IsChain fun c p => c ∈ p.children := by
  induction s using Structure.induct generalizing top with
  | node entity children ih =>
    rcases mem_lineageUnder_iff.1 hx with hx | ⟨c, hc, hx⟩
    · cases hx
      exact htop
    · exact ih c hc hx (.cons_cons hc htop)

theorem mem_of_lineageUnder {top above : List Structure} {s x y : Structure}
    (hx : (above, x) ∈ s.lineageUnder top) (hy : y ∈ above) : y ∈ top ∨ y ∈ s.nodes := by
  induction s using Structure.induct generalizing top with
  | node entity children ih =>
    rcases mem_lineageUnder_iff.1 hx with hx | ⟨c, hc, hx⟩
    · cases hx
      exact .inl hy
    · rcases ih c hc hx with hy | hy
      · rcases List.mem_cons.1 hy with rfl | hy
        · exact .inr (self_mem_nodes _)
        · exact .inl hy
      · exact .inr (mem_nodes_of_child hc hy)

theorem mem_nodes_of_lineage {above : List Structure} {s x y : Structure} (hx : (above, x) ∈ s.lineage)
    (hy : y ∈ above) : y ∈ s.nodes :=
  (mem_of_lineageUnder hx hy).resolve_left List.not_mem_nil

theorem mem_resources_of_nearest? {above : List Structure} {tree s r : Structure}
    (hmem : (above, s) ∈ tree.lineage) (hr : nearest? above = some r) : r ∈ tree.resources :=
  mem_resources_iff.2 ⟨mem_nodes_of_lineage hmem (List.mem_of_find?_eq_some hr), List.find?_some hr⟩

theorem isResource_of_mem_outermost {s x : Structure} (h : x ∈ s.outermost) : x.isResource :=
  (mem_resources_iff.1 ((outermost_sublist s).mem h)).2

theorem mem_outermostAll_of_chain {between : List Structure} {c r x : Structure}
    (hchain : (c :: (between ++ [r])).IsChain fun c p => c ∈ p.children)
    (hbetween : ∀ y ∈ between, ¬ y.isResource) (hx : x ∈ c.outermost) : x ∈ outermostAll r.children := by
  induction between generalizing c with
  | nil =>
    rw [outermostAll_eq]
    exact List.mem_flatMap_of_mem (List.isChain_pair.1 hchain) hx
  | cons d between ih =>
    obtain ⟨hd, hrest⟩ := List.isChain_cons_cons.1 hchain
    rw [List.forall_mem_cons] at hbetween
    apply ih hrest hbetween.2
    rw [outermost_of_not_resource hbetween.1, outermostAll_eq]
    exact List.mem_flatMap_of_mem hd hx

theorem exists_lineage_of_outermost {above : List Structure} {tree c x : Structure}
    (hc : (above, c) ∈ tree.lineage) (hx : x ∈ c.outermost) :
    ∃ between : List Structure, (∀ y ∈ between, ¬ y.isResource) ∧ (between ++ above, x) ∈ tree.lineage := by
  induction c using Structure.induct generalizing above with
  | node entity children ih =>
    by_cases h : (Structure.node entity children).isResource
    · rw [outermost_of_resource h, List.mem_singleton] at hx
      subst hx
      exact ⟨[], List.forall_mem_nil _, hc⟩
    · rw [outermost_of_not_resource h, outermostAll_eq, List.mem_flatMap] at hx
      obtain ⟨d, hd, hx⟩ := hx
      obtain ⟨between, hbetween, hmem⟩ := ih d hd (child_mem_lineageUnder hc hd) hx
      refine ⟨between ++ [.node entity children], ?_, ?_⟩
      · rw [List.forall_mem_append, List.forall_mem_singleton]
        exact ⟨hbetween, h⟩
      · rwa [List.append_assoc, List.singleton_append]

/-- Going down from a resource one meets first those whose nearest resource upwards it is. -/
theorem mem_outermostAll_iff {tree r x : Structure} (hr : r ∈ tree.resources) :
    x ∈ outermostAll r.children ↔
      x.isResource ∧ ∃ above, (above, x) ∈ tree.lineage ∧ nearest? above = some r := by
  obtain ⟨hresource, above, habove⟩ := mem_resources_iff_lineage.1 hr
  constructor
  · intro hx
    rw [outermostAll_eq, List.mem_flatMap] at hx
    obtain ⟨c, hc, hx⟩ := hx
    obtain ⟨between, hbetween, hmem⟩ :=
      exists_lineage_of_outermost (child_mem_lineageUnder habove hc) hx
    refine ⟨isResource_of_mem_outermost hx, _, hmem, ?_⟩
    rw [nearest?, List.find?_append, List.find?_eq_none.2 hbetween, Option.none_or,
      List.find?_cons_of_pos hresource]
  · rintro ⟨hx, above, hmem, hnearest⟩
    obtain ⟨-, between, after, rfl, hbetween⟩ := List.find?_eq_some_iff_append.1 hnearest
    have hchain := isChain_lineageUnder hmem (.singleton _)
    rw [← List.cons_append, List.isChain_split] at hchain
    apply mem_outermostAll_of_chain hchain.1
    · intro y hy
      simpa using hbetween y hy
    · rw [outermost_of_resource hx]
      exact List.mem_singleton_self x

end Inventory.Structure

import Inventory.Graph.Tree
import Mathlib.Data.List.Chain
import Mathlib.Data.List.Forall2
import Mathlib.Logic.Relation

/-! # Unfoldings and loops

The unfolding of an id is the node of its resource over the unfoldings of those of its children that are
resources. `Adjacency.Unfolds` relates an id to its unfolding where that is finite. There is at most one
(`Unfolds.unique`), and an id that is linked to itself has none (`Unfolds.not_transGen`). A `Loop` is a
way from a root that ends at an id it has passed.
-/

namespace Inventory

namespace ResourceNode

@[elab_as_elim]
theorem induct {motive : ResourceNode → Prop}
    (node : ∀ id name typeId children, (∀ c ∈ children, motive c) → motive (.node id name typeId children))
    (n : ResourceNode) : motive n :=
  @rec motive (fun children => ∀ c ∈ children, motive c) node (List.forall_mem_nil _)
    (fun _ _ hc hrest => List.forall_mem_cons.2 ⟨hc, hrest⟩) n

mutual

/-- How many levels the tree has, the root being the first. -/
def levels : ResourceNode → Nat
  | .node _ _ _ children => levelsAll children + 1

def levelsAll : List ResourceNode → Nat
  | [] => 0
  | c :: rest => max (levels c) (levelsAll rest)

end

theorem countAll_append (as bs : List ResourceNode) : countAll (as ++ bs) = countAll as + countAll bs := by
  induction as with
  | nil => exact (Nat.zero_add _).symm
  | cons c rest ih => rw [List.cons_append, countAll, ih, countAll, Nat.add_assoc]

theorem countAll_reverse (cs : List ResourceNode) : countAll cs.reverse = countAll cs := by
  induction cs with
  | nil => rfl
  | cons c rest ih => rw [List.reverse_cons, countAll_append, ih, countAll, countAll, countAll]; omega

theorem count_le_countAll {c : ResourceNode} {cs : List ResourceNode} (h : c ∈ cs) : c.count ≤ countAll cs := by
  obtain ⟨before, after, rfl⟩ := List.append_of_mem h
  rw [countAll_append, countAll]
  omega

theorem levelsAll_append (as bs : List ResourceNode) :
    levelsAll (as ++ bs) = max (levelsAll as) (levelsAll bs) := by
  induction as with
  | nil => exact (Nat.zero_max _).symm
  | cons c rest ih => rw [List.cons_append, levelsAll, ih, levelsAll, Nat.max_assoc]

theorem levelsAll_reverse (cs : List ResourceNode) : levelsAll cs.reverse = levelsAll cs := by
  induction cs with
  | nil => rfl
  | cons c rest ih => rw [List.reverse_cons, levelsAll_append, ih, levelsAll, levelsAll, levelsAll]; omega

theorem levels_le_count (n : ResourceNode) : n.levels ≤ n.count := by
  induction n using ResourceNode.induct with
  | node _ _ _ children ih =>
    rw [levels, count]
    apply Nat.succ_le_succ
    induction children with
    | nil => exact Nat.le_refl 0
    | cons c rest ihrest =>
      rw [List.forall_mem_cons] at ih
      have hrest := ihrest ih.2
      have hc := ih.1
      rw [levelsAll, countAll]
      omega

mutual

def labels : ResourceNode → List (String × String × String)
  | .node id name typeId children => (id, name, typeId) :: labelsAll children

def labelsAll : List ResourceNode → List (String × String × String)
  | [] => []
  | c :: rest => labels c ++ labelsAll rest

end

theorem labelsAll_append (as bs : List ResourceNode) : labelsAll (as ++ bs) = labelsAll as ++ labelsAll bs := by
  induction as with
  | nil => rfl
  | cons c rest ih => rw [List.cons_append, labelsAll, ih, labelsAll, List.append_assoc]

theorem length_labels (n : ResourceNode) : n.labels.length = n.count := by
  induction n using ResourceNode.induct with
  | node _ _ _ children ih =>
    rw [labels, List.length_cons, count]
    apply congrArg Nat.succ
    induction children with
    | nil => rfl
    | cons c rest ihrest =>
      rw [List.forall_mem_cons] at ih
      rw [labelsAll, List.length_append, countAll, ih.1, ihrest ih.2]

end ResourceNode

theorem eq_of_forall₂ {α β : Type} {R : α → β → Prop} {as : List α} {bs cs : List β}
    (hunique : ∀ b ∈ bs, ∀ a c, R a b → R a c → b = c) (hbs : List.Forall₂ R as bs)
    (hcs : List.Forall₂ R as cs) : bs = cs := by
  induction hbs generalizing cs with
  | nil =>
    cases hcs
    rfl
  | cons hb _ ih =>
    cases hcs with
    | cons hc hrest =>
      rw [List.forall_mem_cons] at hunique
      rw [hunique.1 _ _ hb hc, ih hunique.2 hrest]

namespace Adjacency

def Keyed (a : Adjacency) : Prop :=
  ∀ id r, a.resource? id = some r → r.id = id

def stored (a : Adjacency) (ids : List String) : List String :=
  ids.filter fun id => (a.resource? id).isSome

inductive Unfolds (a : Adjacency) : String → ResourceNode → Prop where
  | node {id : String} {r : Resource} {children : List ResourceNode} (found : a.resource? id = some r)
      (below : List.Forall₂ (Unfolds a) (a.stored (a.children id)) children) :
      Unfolds a id (.node r.id r.name r.typeId children)

structure Link (a : Adjacency) (parent child : String) : Prop where
  parent_stored : (a.resource? parent).isSome
  child_stored : (a.resource? child).isSome
  mem : child ∈ a.children parent

/-- A way from a root along children that are resources, which ends where it has been before. -/
structure Loop (a : Adjacency) (root id : String) (path : List String) : Prop where
  starts : path.head? = some root
  stored : ∀ other ∈ path, (a.resource? other).isSome
  linked : path.IsChain fun parent child => child ∈ a.children parent
  ends : path.getLast? = some id
  nodup : path.dropLast.Nodup
  mem : id ∈ path.dropLast

variable {a : Adjacency}

theorem mem_stored_iff {id : String} {ids : List String} :
    id ∈ a.stored ids ↔ id ∈ ids ∧ (a.resource? id).isSome :=
  List.mem_filter

theorem stored_cons_none {id : String} (h : a.resource? id = none) (ids : List String) :
    a.stored (id :: ids) = a.stored ids := by
  rw [stored, List.filter_cons, h]
  rfl

theorem stored_cons_some {id : String} {r : Resource} (h : a.resource? id = some r) (ids : List String) :
    a.stored (id :: ids) = id :: a.stored ids := by
  rw [stored, List.filter_cons, h]
  rfl

namespace Unfolds

theorem exists_resource {id : String} {t : ResourceNode} (h : a.Unfolds id t) :
    ∃ r, a.resource? id = some r := by
  cases h with
  | node found _ => exact ⟨_, found⟩

theorem unique {id : String} {t u : ResourceNode} (ht : a.Unfolds id t) (hu : a.Unfolds id u) : t = u := by
  induction t using ResourceNode.induct generalizing id u with
  | node _ _ _ children ih =>
    cases ht with
    | node found below =>
      cases hu with
      | node found' below' =>
        rw [found, Option.some.injEq] at found'
        subst found'
        rw [eq_of_forall₂ (R := a.Unfolds) (fun c hc _ _ h h' => ih c hc h h') below below']

theorem exists_of_link {parent child : String} {t : ResourceNode} (h : a.Unfolds parent t)
    (hlink : a.Link parent child) : ∃ u, a.Unfolds child u ∧ u.count < t.count := by
  cases h with
  | @node _ _ children _ below =>
    have hmem : child ∈ a.stored (a.children parent) := mem_stored_iff.2 ⟨hlink.mem, hlink.child_stored⟩
    obtain ⟨i, hi, hget⟩ := List.getElem_of_mem hmem
    have hlength := below.length_eq
    have hu := below.get hi (hlength ▸ hi)
    rw [List.get_eq_getElem, hget] at hu
    refine ⟨_, hu, ?_⟩
    rw [ResourceNode.count]
    exact Nat.lt_succ_of_le (ResourceNode.count_le_countAll (List.getElem_mem _))

theorem exists_of_transGen {id other : String} {t : ResourceNode} (h : a.Unfolds id t)
    (hpath : Relation.TransGen a.Link id other) : ∃ u, a.Unfolds other u ∧ u.count < t.count := by
  induction hpath with
  | single hlink => exact h.exists_of_link hlink
  | tail _ hlink ih =>
    obtain ⟨u, hu, hlt⟩ := ih
    obtain ⟨v, hv, hlt'⟩ := hu.exists_of_link hlink
    exact ⟨v, hv, Nat.lt_trans hlt' hlt⟩

theorem exists_of_reflTransGen {id other : String} {t : ResourceNode} (h : a.Unfolds id t)
    (hpath : Relation.ReflTransGen a.Link id other) : ∃ u, a.Unfolds other u := by
  obtain rfl | hpath := Relation.reflTransGen_iff_eq_or_transGen.1 hpath
  · exact ⟨t, h⟩
  · obtain ⟨u, hu, -⟩ := h.exists_of_transGen hpath
    exact ⟨u, hu⟩

/-- A node on a cycle would have an unfolding smaller than itself. -/
theorem not_transGen {id : String} {t : ResourceNode} (h : a.Unfolds id t) :
    ¬ Relation.TransGen a.Link id id := by
  intro hcycle
  obtain ⟨u, hu, hlt⟩ := h.exists_of_transGen hcycle
  rw [h.unique hu] at hlt
  exact Nat.lt_irrefl _ hlt

end Unfolds

theorem Loop.isChain_link {root id : String} {path : List String} (h : a.Loop root id path) :
    path.IsChain a.Link := by
  refine h.linked.imp_of_mem_imp ?_
  intro parent child hparent hchild hmem
  exact ⟨h.stored parent hparent, h.stored child hchild, hmem⟩

theorem Loop.exists_split {root id : String} {path : List String} (h : a.Loop root id path) :
    ∃ before after, path = before ++ id :: (after ++ [id]) := by
  obtain ⟨before, after, hsplit⟩ := List.append_of_mem h.mem
  refine ⟨before, after, ?_⟩
  rw [← List.dropLast_append_getLast? id h.ends, hsplit, List.append_assoc, List.cons_append]

theorem transGen_of_isChain {R : String → String → Prop} {first last : String} {between : List String}
    (h : (first :: (between ++ [last])).IsChain R) : Relation.TransGen R first last := by
  induction between generalizing first with
  | nil => exact .single (List.isChain_pair.1 h)
  | cons second between ih =>
    obtain ⟨hfirst, hrest⟩ := List.isChain_cons_cons.1 h
    exact .head hfirst (ih hrest)

/-- The root leads to the id, and the id back to itself. -/
theorem Loop.reaches {root id : String} {path : List String} (h : a.Loop root id path) :
    Relation.ReflTransGen a.Link root id ∧ Relation.TransGen a.Link id id := by
  obtain ⟨before, after, rfl⟩ := h.exists_split
  obtain ⟨hbefore, hafter⟩ := List.isChain_split.1 h.isChain_link
  have hne : before ++ [id] ≠ [] := List.append_ne_nil_of_right_ne_nil before (List.cons_ne_nil id [])
  have hreach := List.relationReflTransGen_of_exists_isChain _ hbefore hne
  have hstarts : (before ++ [id]).head hne = root := by
    rw [List.head_eq_iff_head?_eq_some, ← h.starts]
    cases before <;> rfl
  rw [hstarts, List.getLast_append_singleton] at hreach
  exact ⟨hreach, transGen_of_isChain hafter⟩

theorem Loop.not_unfolds {root id : String} {path : List String} (h : a.Loop root id path)
    (t : ResourceNode) : ¬ a.Unfolds root t := by
  intro ht
  obtain ⟨hreach, hcycle⟩ := h.reaches
  obtain ⟨u, hu⟩ := ht.exists_of_reflTransGen hreach
  exact hu.not_transGen hcycle

end Adjacency

namespace Graph

theorem keyed_adjacency (g : Graph) : g.adjacency.Keyed := by
  intro id r h
  exact Store.id_of_get? h

end Graph

end Inventory

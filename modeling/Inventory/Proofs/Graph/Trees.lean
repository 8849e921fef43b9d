import Inventory.Graph.Batch
import Inventory.Proofs.Graph.Walk

/-! # Trees and loops

`buildTree` gives the unfolding of its root where that is finite and within the limits, and nothing else. A
loop is reported only where there is one below the root, and unless a limit is exceeded it is reported
there. Both are read from the ways in which a walk can end (`exists_ending`).
-/

namespace Inventory

namespace TreeLimits

/-- The tree is within the limits; a root alone always is. -/
structure Admits (limits : TreeLimits) (t : ResourceNode) : Prop where
  count_le : t.count ≤ max 1 limits.maxNodes
  levels_le : t.levels ≤ max 1 limits.maxDepth

end TreeLimits

section BuildTree

variable {a : Adjacency} {root : String}

theorem buildTree_of_none (h : a.resource? root = none) (limits : TreeLimits) :
    (buildTree a limits root).result = .ok none := by
  rw [buildTree, h]

theorem exists_ending {r : Resource} (ha : a.Keyed) (h : a.resource? root = some r) (limits : TreeLimits) :
    ∃ result, a.Ending limits root result ∧ (buildTree a limits root).result = result.map some := by
  refine ⟨_, Walk.ending_run ha h, ?_⟩
  rw [buildTree, h]

theorem buildTree_of_resultWithin {limits : TreeLimits} {r : Resource} {n : Nat}
    {result : Except Error ResourceNode} (h : a.resource? root = some r)
    (hrun : Walk.resultWithin a limits root n (.start a r) = some result) :
    (buildTree a limits root).result = result.map some := by
  rw [buildTree, h]
  exact congrArg (Except.map some) (Walk.run_of_resultWithin hrun)

theorem Adjacency.Ending.eq_ok {limits : TreeLimits} {result : Except Error ResourceNode} {t : ResourceNode}
    (h : a.Ending limits root result) (ht : a.Unfolds root t) (hlimits : limits.Admits t) :
    result = .ok t := by
  cases h with
  | tree unfolds _ _ => rw [unfolds.unique ht]
  | cycle loop => exact absurd ht (loop.not_unfolds t)
  | deep lt_levels => exact absurd hlimits.levels_le (Nat.not_le.2 (lt_levels t ht))
  | full lt_count => exact absurd hlimits.count_le (Nat.not_le.2 (lt_count t ht))

theorem buildTree_of_unfolds {limits : TreeLimits} {t : ResourceNode} (ha : a.Keyed) (ht : a.Unfolds root t)
    (hlimits : limits.Admits t) : (buildTree a limits root).result = .ok (some t) := by
  obtain ⟨r, hr⟩ := ht.exists_resource
  obtain ⟨result, hending, heq⟩ := exists_ending ha hr limits
  rw [heq, hending.eq_ok ht hlimits]
  rfl

theorem Adjacency.Loop.of_result {limits : TreeLimits} {id : String} {path : List String} (ha : a.Keyed)
    (h : (buildTree a limits root).result = .error (.cycleDetected id path)) : a.Loop root id path := by
  cases hroot : a.resource? root with
  | none =>
    rw [buildTree_of_none hroot] at h
    cases h
  | some r =>
    obtain ⟨result, hending, heq⟩ := exists_ending ha hroot limits
    rw [heq] at h
    cases hending with
    | cycle loop =>
      cases h
      exact loop
    | tree _ _ _ => cases h
    | deep _ => cases h
    | full _ => cases h

/-- The unfolding of the root is given if it is finite and within the limits, nothing if there is no root,
and in every other case an error that names a loop or a limit. -/
theorem buildTree_unfolding (ha : a.Keyed) (limits : TreeLimits) (root : String) :
    ((buildTree a limits root).result = .ok none ↔ a.resource? root = none) ∧
    (∀ t, (buildTree a limits root).result = .ok (some t) ↔ a.Unfolds root t ∧ limits.Admits t) ∧
    ((a.resource? root ≠ none ∧ ∀ t, a.Unfolds root t → ¬ limits.Admits t) ↔
      (∃ id path, (buildTree a limits root).result = .error (.cycleDetected id path)) ∨
        ∃ what limit, (buildTree a limits root).result = .error (.treeLimitExceeded root what limit)) := by
  cases hroot : a.resource? root with
  | none =>
    have hnone := buildTree_of_none hroot limits
    have hunknown : ∀ t, ¬ a.Unfolds root t := by
      intro t ht
      obtain ⟨r, hr⟩ := ht.exists_resource
      rw [hroot] at hr
      cases hr
    simp [hnone, hunknown]
  | some r =>
    obtain ⟨result, hending, heq⟩ := exists_ending ha hroot limits
    have hunfolds : ∀ t, result = .ok t ↔ a.Unfolds root t ∧ limits.Admits t := by
      intro t
      constructor
      · rintro rfl
        cases hending with
        | tree unfolds count_le levels_le => exact ⟨unfolds, count_le, levels_le⟩
      · rintro ⟨ht, hlimits⟩
        exact hending.eq_ok ht hlimits
    rw [heq]
    refine ⟨?_, ?_, ?_⟩
    · cases result <;> simp [Except.map]
    · intro t
      rw [← hunfolds]
      cases result <;> simp [Except.map]
    · have hother : (∀ t, a.Unfolds root t → ¬ limits.Admits t) ↔ ∀ t, result ≠ .ok t := by
        apply forall_congr'
        intro t
        rw [Ne, hunfolds, not_and]
      rw [hother]
      cases hending <;> simp [Except.map]

/-- Two ways from the top lead to the base, and one child of the top is not stored. -/
def diamond : Adjacency where
  resource? id := if id ∈ ["top", "left", "right", "base"] then some (.plain id "" "") else none
  children
    | "top" => ["left", "ghost", "right"]
    | "left" => ["base"]
    | "right" => ["base"]
    | _ => []

theorem keyed_diamond : diamond.Keyed := by
  intro id r h
  obtain ⟨-, hr⟩ := Option.ite_none_right_eq_some.1 h
  exact congrArg Resource.id (Option.some.inj hr).symm

/-- The diamond has five nodes on three levels, just as many as allowed. -/
theorem buildTree_unfolding_diamond :
    diamond.Keyed ∧ (buildTree diamond ⟨3, 5⟩ "top").result =
      .ok (some (.node "top" "" "" [.node "left" "" "" [.node "base" "" "" []],
        .node "right" "" "" [.node "base" "" "" []]])) := by
  have hbase : diamond.Unfolds "base" (.node "base" "" "" []) :=
    .node (r := .plain "base" "" "") rfl .nil
  have hleft : diamond.Unfolds "left" (.node "left" "" "" [.node "base" "" "" []]) :=
    .node (r := .plain "left" "" "") rfl (.cons hbase .nil)
  have hright : diamond.Unfolds "right" (.node "right" "" "" [.node "base" "" "" []]) :=
    .node (r := .plain "right" "" "") rfl (.cons hbase .nil)
  refine ⟨keyed_diamond, ((buildTree_unfolding keyed_diamond ⟨3, 5⟩ "top").2.1 _).2 ⟨?_, ?_, ?_⟩⟩
  · exact .node (r := .plain "top" "" "") rfl (.cons hleft (.cons hright .nil))
  · decide
  · decide

end BuildTree

namespace Graph

open Relation (ReflTransGen TransGen)

/-- A reported loop is one. Unless a limit is exceeded it is reported just where some resource that the
root leads to leads back to itself; where none does, as in a diamond, none is reported. -/
theorem tree?_loop (g : Graph) (limits : TreeLimits) (root : String) :
    (∀ id path, g.tree? limits root = .error (.cycleDetected id path) → g.adjacency.Loop root id path) ∧
    ((∀ top what limit, g.tree? limits root ≠ .error (.treeLimitExceeded top what limit)) →
      ((∃ id path, g.tree? limits root = .error (.cycleDetected id path)) ↔
        ∃ id, (g.resource? root).isSome ∧ ReflTransGen g.adjacency.Link root id ∧
          TransGen g.adjacency.Link id id)) ∧
    ((∀ id, ReflTransGen g.adjacency.Link root id → ¬ TransGen g.adjacency.Link id id) →
      ∀ id path, g.tree? limits root ≠ .error (.cycleDetected id path)) := by
  have hloop : ∀ id path, g.tree? limits root = .error (.cycleDetected id path) →
      g.adjacency.Loop root id path := fun _ _ h => .of_result g.keyed_adjacency h
  refine ⟨hloop, ?_, ?_⟩
  · intro hlimit
    constructor
    · rintro ⟨id, path, h⟩
      have hpath := hloop id path h
      obtain ⟨hreach, hcycle⟩ := hpath.reaches
      exact ⟨id, hpath.stored root (List.mem_of_head? hpath.starts), hreach, hcycle⟩
    · rintro ⟨id, hroot, hreach, hcycle⟩
      obtain ⟨r, hr⟩ := Option.isSome_iff_exists.1 hroot
      obtain ⟨result, hending, heq⟩ := exists_ending g.keyed_adjacency hr limits
      rw [tree?, heq] at hlimit ⊢
      cases hending with
      | cycle loop => exact ⟨_, _, rfl⟩
      | tree unfolds _ _ =>
        obtain ⟨u, hu⟩ := unfolds.exists_of_reflTransGen hreach
        exact absurd hcycle hu.not_transGen
      | deep _ => exact absurd rfl (hlimit _ _ _)
      | full _ => exact absurd rfl (hlimit _ _ _)
  · intro hacyclic id path h
    obtain ⟨hreach, hcycle⟩ := (hloop id path h).reaches
    exact hacyclic id hreach hcycle

def lasso : Graph :=
  empty.batch ([("root", ["left", "right"]), ("left", ["base"]), ("right", ["base"]), ("base", ["deep"]),
    ("deep", ["base"])].map fun (id, childIds) => .record (.resource { Resource.plain id "" "" with childIds }))

theorem tree?_loop_lasso :
    lasso.tree? .standard "root" =
      .error (.cycleDetected "base" ["root", "left", "base", "deep", "base"]) ∧
    lasso.adjacency.Loop "root" "base" ["root", "left", "base", "deep", "base"] ∧
    ∃ id, (lasso.resource? "root").isSome ∧ ReflTransGen lasso.adjacency.Link "root" id ∧
      TransGen lasso.adjacency.Link id id := by
  have hroot : lasso.resource? "root" =
      some { Resource.plain "root" "" "" with childIds := ["left", "right"] } := by decide +kernel
  have hrun : Walk.resultWithin lasso.adjacency .standard "root" 4
      (.start lasso.adjacency { Resource.plain "root" "" "" with childIds := ["left", "right"] }) =
        some (.error (.cycleDetected "base" ["root", "left", "base", "deep", "base"])) := by decide +kernel
  have htree : lasso.tree? .standard "root" =
      .error (.cycleDetected "base" ["root", "left", "base", "deep", "base"]) := by
    rw [tree?, buildTree_of_resultWithin hroot hrun]
    rfl
  have hlimit : ∀ top what limit,
      lasso.tree? .standard "root" ≠ .error (.treeLimitExceeded top what limit) := by
    intro top what limit h
    rw [htree] at h
    cases h
  exact ⟨htree, (tree?_loop lasso .standard "root").1 _ _ htree,
    ((tree?_loop lasso .standard "root").2.1 hlimit).1 ⟨_, _, htree⟩⟩

end Graph

end Inventory

import Inventory.Proofs.Graph.Trees

/-! # Limits cut off and change nothing

A walk takes the same steps under wider limits until a step exceeds the narrower ones (`Walk.step_eq_or_exceeds`).
A limit is looked at only once a child is known not to close a loop and to be a resource, so neither a loop nor a
child that is passed over is hidden by one.
-/

namespace Inventory

namespace Walk

variable {a : Adjacency} {limits wider : TreeLimits} {root : String}

theorem stepChild_eq_or_exceeds (hdepth : limits.maxDepth ≤ wider.maxDepth)
    (hnodes : limits.maxNodes ≤ wider.maxNodes) (w : Walk) (id : String) (todo : List String) :
    stepChild a limits root w id todo = stepChild a wider root w id todo ∨
      ∃ last what limit,
        stepChild a limits root w id todo = .ended last (.error (.treeLimitExceeded root what limit)) := by
  unfold stepChild
  by_cases hseen : id ∈ w.ancestors
  · rw [if_pos hseen, if_pos hseen]
    exact .inl rfl
  · rw [if_neg hseen, if_neg hseen]
    cases a.resource? id with
    | none => exact .inl rfl
    | some r =>
      dsimp only
      rcases Nat.lt_or_ge w.depth limits.maxDepth with hlevel | hlevel
      · rcases Nat.lt_or_ge w.nodes limits.maxNodes with hroom | hroom
        · left
          rw [if_neg (by omega), if_neg (by omega), if_neg (by omega), if_neg (by omega)]
        · right
          rw [if_neg (by omega), if_pos hroom]
          exact ⟨_, _, _, rfl⟩
      · right
        rw [if_pos hlevel]
        exact ⟨_, _, _, rfl⟩

theorem step_eq_or_exceeds (hdepth : limits.maxDepth ≤ wider.maxDepth)
    (hnodes : limits.maxNodes ≤ wider.maxNodes) (w : Walk) :
    step a limits root w = step a wider root w ∨
      ∃ last what limit,
        step a limits root w = .ended last (.error (.treeLimitExceeded root what limit)) := by
  rw [step, step]
  cases w.top.todo with
  | nil => exact .inl rfl
  | cons id todo => exact stepChild_eq_or_exceeds hdepth hnodes w id todo

theorem run_eq_or_exceeds (hdepth : limits.maxDepth ≤ wider.maxDepth)
    (hnodes : limits.maxNodes ≤ wider.maxNodes) (w : Walk) :
    (∃ what limit, (run a limits root w).2 = .error (.treeLimitExceeded root what limit)) ∨
      run a limits root w = run a wider root w := by
  -- Along the run within the narrower limits, which is the shorter one.
  induction w using run.induct a limits root with
  | case1 w last result hstep =>
    rcases step_eq_or_exceeds hdepth hnodes w with heq | ⟨_, what, limit, hexceeds⟩
    · right
      rw [run_of_ended hstep, run_of_ended (heq ▸ hstep)]
    · left
      rw [run_of_ended hexceeds]
      exact ⟨what, limit, rfl⟩
  | case2 w next hstep _ ih =>
    rcases step_eq_or_exceeds hdepth hnodes w with heq | ⟨_, _, _, hexceeds⟩
    · have hwider : step a wider root w = .running next := heq ▸ hstep
      rw [run_of_running hstep, run_of_running hwider]
      exact ih
    · rw [hstep] at hexceeds
      cases hexceeds

end Walk

/-- What is found within some limits is found within all wider ones, with the same effort, be it a tree, a loop
or nothing. No lookup has to be consistent for that. -/
theorem buildTree_eq_or_exceeds (a : Adjacency) (limits wider : TreeLimits)
    (hdepth : limits.maxDepth ≤ wider.maxDepth) (hnodes : limits.maxNodes ≤ wider.maxNodes) (root : String) :
    (∃ what limit, (buildTree a limits root).result = .error (.treeLimitExceeded root what limit)) ∨
      buildTree a limits root = buildTree a wider root := by
  cases hroot : a.resource? root with
  | none =>
    right
    rw [buildTree, buildTree, hroot]
  | some r =>
    rw [buildTree, buildTree, hroot]
    dsimp only
    rcases Walk.run_eq_or_exceeds hdepth hnodes (.start a r) with ⟨what, limit, hexceeds⟩ | heq
    · left
      rw [hexceeds]
      exact ⟨what, limit, rfl⟩
    · right
      rw [heq]

/-- The loop lies on the last level that is allowed, behind the last node. -/
theorem buildTree_eq_or_exceeds_lasso :
    4 ≤ TreeLimits.standard.maxDepth ∧ 4 ≤ TreeLimits.standard.maxNodes ∧
      buildTree Graph.lasso.adjacency ⟨4, 4⟩ "root" = buildTree Graph.lasso.adjacency .standard "root" ∧
      (buildTree Graph.lasso.adjacency ⟨4, 4⟩ "root").result =
        .error (.cycleDetected "base" ["root", "left", "base", "deep", "base"]) := by
  have hroot : Graph.lasso.adjacency.resource? "root" =
      some { Resource.plain "root" "" "" with childIds := ["left", "right"] } := by decide +kernel
  have hrun : Walk.resultWithin Graph.lasso.adjacency ⟨4, 4⟩ "root" 4
      (.start Graph.lasso.adjacency { Resource.plain "root" "" "" with childIds := ["left", "right"] }) =
        some (.error (.cycleDetected "base" ["root", "left", "base", "deep", "base"])) := by decide +kernel
  have hdepth : 4 ≤ TreeLimits.standard.maxDepth := by decide
  have hnodes : 4 ≤ TreeLimits.standard.maxNodes := by decide
  have hresult := buildTree_of_resultWithin hroot hrun
  refine ⟨hdepth, hnodes, ?_, hresult⟩
  apply (buildTree_eq_or_exceeds Graph.lasso.adjacency ⟨4, 4⟩ .standard hdepth hnodes "root").resolve_left
  rintro ⟨what, limit, hexceeds⟩
  rw [hresult] at hexceeds
  cases hexceeds

end Inventory

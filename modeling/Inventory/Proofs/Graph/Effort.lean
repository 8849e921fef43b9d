import Inventory.Proofs.Graph.Trees
import Inventory.Proofs.Traversal
import Mathlib.Algebra.GroupWithZero.Nat
import Mathlib.Data.List.Perm.Subperm
import Mathlib.Order.WellFounded

/-! # The effort of a walk

No walk goes on for ever, even if the lookups change their answers on the way (`Walk.wellFounded_follows`), since
each step begins one of the nodes allowed or leaves less to do. What a walk asks for is told by its tree: children
once for each node, and a resource once for each child listed there (`Walk.Accounts`). Where lookups are consistent
the open nodes are as many as the known ids at most (`Walk.Open.depth_le`).
-/

namespace Inventory

open Relation (ReflTransGen)

namespace Adjacency

def listed (a : Adjacency) (labels : List (String × String × String)) : Nat :=
  (labels.map fun label => (a.children label.1).length).sum

variable {a : Adjacency}

theorem listed_cons (id name typeId : String) (labels : List (String × String × String)) :
    a.listed ((id, name, typeId) :: labels) = (a.children id).length + a.listed labels := by
  rw [listed, List.map_cons, List.sum_cons, listed]

theorem listed_append (as bs : List (String × String × String)) :
    a.listed (as ++ bs) = a.listed as + a.listed bs := by
  rw [listed, List.map_append, List.sum_append, listed, listed]

theorem listed_labelsAll_reverse (cs : List ResourceNode) :
    a.listed (ResourceNode.labelsAll cs.reverse) = a.listed (ResourceNode.labelsAll cs) := by
  induction cs with
  | nil => rfl
  | cons c rest ih =>
    rw [List.reverse_cons, ResourceNode.labelsAll_append, listed_append, ih, ResourceNode.labelsAll,
      ResourceNode.labelsAll, List.append_nil, ResourceNode.labelsAll, listed_append, Nat.add_comm]

end Adjacency

namespace OpenNode

variable {a : Adjacency}

/-- How many children are listed for the node and for the nodes of its finished subtrees. -/
def listed (a : Adjacency) (n : OpenNode) : Nat :=
  (a.children n.resource.id).length + a.listed (ResourceNode.labelsAll n.reversed)

theorem listed_enter (r : Resource) : (enter a r).listed a = (enter a r).todo.length := rfl

theorem listed_close (n : OpenNode) : a.listed n.close.labels = n.listed a := by
  rw [close, ResourceNode.labels, Adjacency.listed_cons, Adjacency.listed_labelsAll_reverse, listed]

theorem listed_attach (n : OpenNode) (c : ResourceNode) :
    (n.attach c).listed a = a.listed c.labels + n.listed a := by
  have hreversed : (n.attach c).listed a =
      (a.children n.resource.id).length + a.listed (ResourceNode.labelsAll (c :: n.reversed)) := rfl
  rw [hreversed, ResourceNode.labelsAll, Adjacency.listed_append, listed, Nat.add_left_comm]

end OpenNode

namespace Walk

variable {a : Adjacency} {limits : TreeLimits} {root : String} {w : Walk}

def Next (a : Adjacency) (limits : TreeLimits) (root : String) (w next : Walk) : Prop :=
  step a limits root w = .running next

/-- A step of the walk, whatever the lookups answer in it. -/
def Follows (limits : TreeLimits) (root : String) (w next : Walk) : Prop :=
  ∃ a : Adjacency, Next a limits root w next

theorem wellFounded_follows (limits : TreeLimits) (root : String) :
    WellFounded fun next w => Follows limits root w next := by
  -- The work is no measure alone: a node that is begun brings its children with it.
  refine Subrelation.wf ?_ (InvImage.wf (fun w : Walk => (limits.maxNodes - w.nodes, w.work))
    (WellFounded.prod_lex Nat.lt_wfRel.wf Nat.lt_wfRel.wf))
  rintro next w ⟨a, hnext⟩
  rcases decreases_of_running hnext with ⟨hroom, hnodes⟩ | ⟨hnodes, hwork⟩
  · have hless : limits.maxNodes - next.nodes < limits.maxNodes - w.nodes := by omega
    exact .left _ _ hless
  · rw [InvImage, hnodes]
    exact .right _ hwork

theorem nodes_le_of_follows {r : Resource} (h : ReflTransGen (Follows limits root) (start a r) w) :
    w.nodes ≤ max 1 limits.maxNodes := by
  induction h with
  | refl => exact Nat.le_max_left _ _
  | tail _ hnext ih =>
    obtain ⟨b, hnext⟩ := hnext
    rcases decreases_of_running hnext with ⟨hroom, hnodes⟩ | ⟨hnodes, -⟩
    · omega
    · rwa [hnodes]

/-- Each child that was listed was looked up or is still to be, and so was the root. -/
def Accounts (a : Adjacency) (w : Walk) : Prop :=
  w.lookups + (w.opened.map (·.todo.length)).sum = 1 + (w.opened.map (·.listed a)).sum

theorem accounts_start (r : Resource) : Accounts a (start a r) := rfl

theorem Accounts.skip {id : String} {todo : List String} (h : Accounts a w) (htodo : w.top.todo = id :: todo) :
    Accounts a (w.skip todo) := by
  have hopened : (w.skip todo).opened = (w.skip todo).top :: w.below := rfl
  have hlookups : (w.skip todo).lookups = w.lookups + 1 := rfl
  have hlisted : (w.skip todo).top.listed a = w.top.listed a := rfl
  have hrest : (w.skip todo).top.todo = todo := rfl
  rw [Accounts, opened, List.map_cons, List.sum_cons, htodo, List.length_cons, List.map_cons,
    List.sum_cons] at h
  rw [Accounts, hopened, hlookups, List.map_cons, List.sum_cons, hrest, List.map_cons, List.sum_cons, hlisted]
  omega

theorem Accounts.push (h : Accounts a w) (r : Resource) : Accounts a (w.push a r) := by
  have hopened : (w.push a r).opened = .enter a r :: w.opened := rfl
  have hlookups : (w.push a r).lookups = w.lookups := rfl
  rw [Accounts] at h
  rw [Accounts, hopened, hlookups, List.map_cons, List.sum_cons, List.map_cons, List.sum_cons,
    OpenNode.listed_enter]
  omega

theorem Accounts.step {next : Walk} (h : Accounts a w) (hstep : Stepped a limits root w (.running next)) :
    Accounts a next := by
  cases hstep with
  | skip htodo _ _ => exact h.skip htodo
  | push htodo _ _ _ _ => exact (h.skip htodo).push _
  | @back parent below _ htodo hbelow htop hnext _ _ hlookups =>
    have htodoAttach : (parent.attach w.top.close).todo = parent.todo := rfl
    rw [Accounts, opened, hbelow, List.map_cons, List.sum_cons, htodo, List.length_nil, List.map_cons,
      List.sum_cons, List.map_cons, List.sum_cons, List.map_cons, List.sum_cons] at h
    rw [Accounts, opened, htop, hnext, hlookups, List.map_cons, List.sum_cons, htodoAttach, List.map_cons,
      List.sum_cons, OpenNode.listed_attach, OpenNode.listed_close]
    omega

theorem effort_run (r : Resource) :
    ((start a r).run a limits root).1.nodes ≤ max 1 limits.maxNodes ∧
      ∀ t, ((start a r).run a limits root).2 = .ok t →
        ((start a r).run a limits root).1.nodes = t.count ∧
          ((start a r).run a limits root).1.lookups = 1 + a.listed t.labels := by
  have hstart : Within limits (start a r) ∧ Accounts a (start a r) := ⟨within_start r, accounts_start r⟩
  refine run_induction (P := fun w => Within limits w ∧ Accounts a w)
    (Q := fun last result => last.nodes ≤ max 1 limits.maxNodes ∧
      ∀ t, result = .ok t → last.nodes = t.count ∧ last.lookups = 1 + a.listed t.labels) ?_ ?_ hstart
  · rintro w next ⟨hwithin, haccounts⟩ hstep
    exact ⟨hwithin.step hstep, haccounts.step hstep⟩
  · rintro w last result ⟨hwithin, haccounts⟩ hstep
    have hbound : last.nodes ≤ max 1 limits.maxNodes := by
      cases hstep <;> exact hwithin.nodes_le
    refine ⟨hbound, ?_⟩
    rintro t rfl
    cases hstep with
    | done htodo hbelow =>
      have hnodes := hwithin.nodes_eq
      rw [opened, hbelow, OpenNode.sizeAll, OpenNode.sizeAll, Nat.add_zero] at hnodes
      rw [Accounts, opened, hbelow, List.map_singleton, List.sum_singleton, htodo, List.length_nil,
        List.map_singleton, List.sum_singleton] at haccounts
      rw [OpenNode.count_close, OpenNode.listed_close]
      exact ⟨hnodes, haccounts⟩

theorem open_of_next {r : Resource} (ha : a.Keyed) (hr : a.resource? root = some r)
    (h : ReflTransGen (Next a limits root) (start a r) w) : Open a root w := by
  induction h with
  | refl =>
    have hkey := ha _ _ hr
    subst hkey
    exact open_start hr
  | @tail w next _ hnext ih =>
    have hstep := stepped a limits root w
    rw [hnext] at hstep
    exact ih.step ha hstep

theorem Open.depth_le {known : List String} (h : Open a root w)
    (hknown : ∀ id, (a.resource? id).isSome → id ∈ known) : w.depth ≤ known.length := by
  have hsubset : w.ids ⊆ known := by
    intro id hid
    obtain ⟨n, hn, rfl⟩ := List.mem_map.1 hid
    exact hknown _ (Option.isSome_of_eq_some (h.sound n hn).found)
  have hlength : w.ids.length = w.depth := by
    rw [ids, List.length_map, opened, List.length_cons, w.depth_eq]
  rw [← hlength]
  exact (h.nodup.subperm hsubset).length_le

end Walk

/-- No walk goes on for ever, and none asks for children more often than the limit on nodes says, even if lookups
change their answers. A tree that was built tells how often its lookups were asked. With consistent lookups no
open id is opened again, so there are never more open nodes than ids known. -/
theorem buildTree_effort (a : Adjacency) (limits : TreeLimits) (root : String) :
    (WellFounded fun next w => Walk.Follows limits root w next) ∧
    (∀ r w, ReflTransGen (Walk.Follows limits root) (.start a r) w → w.nodes ≤ max 1 limits.maxNodes) ∧
    (buildTree a limits root).expansions ≤ max 1 limits.maxNodes ∧
    (∀ t, (buildTree a limits root).result = .ok (some t) →
      (buildTree a limits root).expansions = t.count ∧
        (buildTree a limits root).lookups = 1 + a.listed t.labels) ∧
    (a.Keyed → ∀ known : List String, (∀ id, (a.resource? id).isSome → id ∈ known) →
      ∀ r w, a.resource? root = some r → ReflTransGen (Walk.Next a limits root) (.start a r) w →
        w.ids.Nodup ∧ w.depth ≤ known.length) := by
  refine ⟨Walk.wellFounded_follows limits root, fun _ _ h => Walk.nodes_le_of_follows h, ?_, ?_, ?_⟩
  · rw [buildTree]
    cases a.resource? root with
    | none => exact Nat.zero_le _
    | some r => exact (Walk.effort_run r).1
  · intro t ht
    cases hroot : a.resource? root with
    | none =>
      rw [buildTree_of_none hroot] at ht
      cases ht
    | some r =>
      rw [buildTree, hroot] at ht ⊢
      dsimp only at ht ⊢
      obtain ⟨u, hu, hsome⟩ := map_eq_ok_iff.1 ht
      cases hsome
      exact (Walk.effort_run r).2 t hu
  · intro ha known hknown r w hr hreach
    have hopen := Walk.open_of_next ha hr hreach
    exact ⟨hopen.nodup, hopen.depth_le hknown⟩

theorem buildTree_effort_diamond :
    (buildTree diamond ⟨3, 5⟩ "top").expansions = 5 ∧ (buildTree diamond ⟨3, 5⟩ "top").lookups = 6 ∧
    ∃ w, ReflTransGen (Walk.Next diamond ⟨3, 5⟩ "top") (.start diamond (.plain "top" "" "")) w ∧
      w.ids = ["base", "left", "top"] ∧ w.ids.Nodup ∧ w.depth ≤ ["top", "left", "right", "base"].length ∧
      w.nodes ≤ 5 := by
  have hknown : ∀ id, (diamond.resource? id).isSome → id ∈ ["top", "left", "right", "base"] := by
    intro id h
    obtain ⟨r, hr⟩ := Option.isSome_iff_exists.1 h
    exact (Option.ite_none_right_eq_some.1 hr).1
  have hroot : diamond.resource? "top" = some (.plain "top" "" "") := rfl
  have hrun : Walk.resultWithin diamond ⟨3, 5⟩ "top" 10 (.start diamond (.plain "top" "" "")) =
      some (.ok (.node "top" "" "" [.node "left" "" "" [.node "base" "" "" []],
        .node "right" "" "" [.node "base" "" "" []]])) := rfl
  have htree := buildTree_of_resultWithin hroot hrun
  have hreach : ReflTransGen (Walk.Next diamond ⟨3, 5⟩ "top") (.start diamond (.plain "top" "" "")) _ :=
    .tail (.tail .refl rfl) rfl
  obtain ⟨-, hbound, -, hasked, hopen⟩ := buildTree_effort diamond ⟨3, 5⟩ "top"
  have hfollows : ReflTransGen (Walk.Follows ⟨3, 5⟩ "top") (.start diamond (.plain "top" "" "")) _ :=
    ReflTransGen.mono (fun _ _ hnext => ⟨diamond, hnext⟩) _ _ hreach
  obtain ⟨hnodup, hdepth⟩ := hopen keyed_diamond _ hknown _ _ hroot hreach
  exact ⟨(hasked _ htree).1, (hasked _ htree).2, _, hreach, rfl, hnodup, hdepth, hbound _ _ hfollows⟩

end Inventory

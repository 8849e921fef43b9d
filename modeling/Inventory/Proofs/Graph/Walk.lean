import Inventory.Proofs.Graph.Unfolding
import Mathlib.Data.List.Nodup

/-! # What a walk does

`Walk.stepped` lists what one step can do, and `Walk.run_induction` carries a property of walks through all
steps to the end. Three such properties follow: the open nodes are a path of resources that begins at the
root (`Walk.Open`), the nodes and levels stay within the limits (`Walk.Within`), and the trees into which the
walk can still grow do not change (`Walk.grows_iff_of_step`). Together they say how a walk from a root ends
(`Adjacency.Ending`).
-/

namespace Inventory

namespace OpenNode

def attach (n : OpenNode) (c : ResourceNode) : OpenNode :=
  { n with reversed := c :: n.reversed }

/-- How many nodes stand in the part of the tree that is open or finished here. -/
def size (n : OpenNode) : Nat :=
  ResourceNode.countAll n.reversed + 1

def height (n : OpenNode) : Nat :=
  ResourceNode.levelsAll n.reversed + 1

def sizeAll : List OpenNode → Nat
  | [] => 0
  | n :: below => n.size + sizeAll below

/-- The most levels of a tree whose open nodes are given, the nearest one first. -/
def heightAll : List OpenNode → Nat
  | [] => 0
  | n :: below => max (n.height + below.length) (heightAll below)

structure Sound (a : Adjacency) (n : OpenNode) : Prop where
  found : a.resource? n.resource.id = some n.resource
  todo : ∀ id ∈ n.todo, id ∈ a.children n.resource.id

/-- A tree that the node can become: the unfoldings of all that is left to do come after what is
finished. -/
def Closes (a : Adjacency) (n : OpenNode) (t : ResourceNode) : Prop :=
  ∃ more, List.Forall₂ a.Unfolds (a.stored n.todo) more ∧
    t = .node n.resource.id n.resource.name n.resource.typeId (n.reversed.reverse ++ more)

/-- A tree that open nodes can become when a subtree is put below the nearest of them. -/
def Extends (a : Adjacency) : List OpenNode → ResourceNode → ResourceNode → Prop
  | [], c, t => t = c
  | parent :: below, c, t => ∃ d, (parent.attach c).Closes a d ∧ Extends a below d t

variable {a : Adjacency}

theorem count_close (n : OpenNode) : n.close.count = n.size := by
  rw [close, ResourceNode.count, ResourceNode.countAll_reverse, size]

theorem levels_close (n : OpenNode) : n.close.levels = n.height := by
  rw [close, ResourceNode.levels, ResourceNode.levelsAll_reverse, height]

theorem size_attach (n : OpenNode) (c : ResourceNode) : (n.attach c).size = c.count + n.size := by
  rw [size, attach, ResourceNode.countAll, size, Nat.add_assoc]

theorem height_attach (n : OpenNode) (c : ResourceNode) :
    (n.attach c).height = max (c.levels + 1) n.height := by
  rw [height, attach, ResourceNode.levelsAll, height, Nat.add_max_add_right]

theorem closes_iff_of_done {n : OpenNode} (h : n.todo = []) (t : ResourceNode) :
    n.Closes a t ↔ t = n.close := by
  rw [Closes, h, close]
  constructor
  · rintro ⟨more, hmore, rfl⟩
    cases hmore
    rw [List.append_nil]
  · rintro rfl
    exact ⟨[], .nil, by rw [List.append_nil]⟩

theorem closes_iff_of_none {n : OpenNode} {id : String} {todo : List String} (h : n.todo = id :: todo)
    (hid : a.resource? id = none) (t : ResourceNode) :
    n.Closes a t ↔ OpenNode.Closes a { n with todo } t := by
  rw [Closes, Closes, h, Adjacency.stored_cons_none hid]

theorem closes_iff_of_some {n : OpenNode} {id : String} {todo : List String} {r : Resource}
    (h : n.todo = id :: todo) (hid : a.resource? id = some r) (t : ResourceNode) :
    n.Closes a t ↔ ∃ c, a.Unfolds id c ∧ (attach { n with todo } c).Closes a t := by
  rw [Closes, h, Adjacency.stored_cons_some hid]
  constructor
  · rintro ⟨more, hmore, rfl⟩
    cases hmore with
    | @cons _ c _ rest hc hrest => exact ⟨c, hc, rest, hrest, by simp [attach]⟩
  · rintro ⟨c, hc, rest, hrest, rfl⟩
    exact ⟨c :: rest, .cons hc hrest, by simp [attach]⟩

theorem closes_enter_iff {r : Resource} (hr : a.resource? r.id = some r) (t : ResourceNode) :
    (enter a r).Closes a t ↔ a.Unfolds r.id t := by
  constructor
  · rintro ⟨more, hmore, rfl⟩
    exact .node hr hmore
  · intro h
    cases h with
    | node found below =>
      rw [hr, Option.some.injEq] at found
      subst found
      exact ⟨_, below, rfl⟩

theorem Closes.size_le {n : OpenNode} {t : ResourceNode} (h : n.Closes a t) : n.size ≤ t.count := by
  obtain ⟨more, -, rfl⟩ := h
  rw [ResourceNode.count, ResourceNode.countAll_append, ResourceNode.countAll_reverse, size]
  omega

theorem Closes.height_le {n : OpenNode} {t : ResourceNode} (h : n.Closes a t) : n.height ≤ t.levels := by
  obtain ⟨more, -, rfl⟩ := h
  rw [ResourceNode.levels, ResourceNode.levelsAll_append, ResourceNode.levelsAll_reverse, height]
  omega

theorem Extends.count_le {below : List OpenNode} {c t : ResourceNode} (h : Extends a below c t) :
    c.count + sizeAll below ≤ t.count := by
  induction below generalizing c with
  | nil =>
    rw [Extends] at h
    exact Nat.le_of_eq (congrArg ResourceNode.count h.symm)
  | cons parent below ih =>
    obtain ⟨d, hd, ht⟩ := h
    have hsize := hd.size_le
    rw [size_attach] at hsize
    have hcount := ih ht
    rw [OpenNode.sizeAll]
    omega

theorem Extends.levels_le {below : List OpenNode} {c t : ResourceNode} (h : Extends a below c t) :
    c.levels + below.length ≤ t.levels := by
  induction below generalizing c with
  | nil =>
    rw [Extends] at h
    exact Nat.le_of_eq (congrArg ResourceNode.levels h.symm)
  | cons parent below ih =>
    obtain ⟨d, hd, ht⟩ := h
    have hheight := hd.height_le
    rw [height_attach] at hheight
    have hlevels := ih ht
    rw [List.length_cons]
    omega

end OpenNode

namespace Walk

variable {a : Adjacency} {limits : TreeLimits} {root : String} {w : Walk}

def opened (w : Walk) : List OpenNode :=
  w.top :: w.below

def ids (w : Walk) : List String :=
  w.opened.map (·.resource.id)

inductive Stepped (a : Adjacency) (limits : TreeLimits) (root : String) (w : Walk) : Step → Prop where
  | skip {id : String} {todo : List String} (htodo : w.top.todo = id :: todo) (hfresh : id ∉ w.ancestors)
      (hid : a.resource? id = none) : Stepped a limits root w (.running (w.skip todo))
  | push {id : String} {todo : List String} {r : Resource} (htodo : w.top.todo = id :: todo)
      (hfresh : id ∉ w.ancestors) (hid : a.resource? id = some r) (hdepth : w.depth < limits.maxDepth)
      (hnodes : w.nodes < limits.maxNodes) : Stepped a limits root w (.running ((w.skip todo).push a r))
  | back {parent : OpenNode} {below : List OpenNode} {next : Walk} (htodo : w.top.todo = [])
      (hbelow : w.below = parent :: below) (htop : next.top = parent.attach w.top.close)
      (hnext : next.below = below) (hancestors : next.ancestors = w.ancestors.erase w.top.resource.id)
      (hnodes : next.nodes = w.nodes) (hlookups : next.lookups = w.lookups) :
      Stepped a limits root w (.running next)
  | done (htodo : w.top.todo = []) (hbelow : w.below = []) :
      Stepped a limits root w (.ended w (.ok w.top.close))
  | cycle {id : String} {todo : List String} (htodo : w.top.todo = id :: todo) (hseen : id ∈ w.ancestors) :
      Stepped a limits root w (.ended w (.error (.cycleDetected id (w.path ++ [id]))))
  | deep {id : String} {todo : List String} {r : Resource} (htodo : w.top.todo = id :: todo)
      (hfresh : id ∉ w.ancestors) (hid : a.resource? id = some r) (hdepth : limits.maxDepth ≤ w.depth) :
      Stepped a limits root w
        (.ended (w.skip todo) (.error (.treeLimitExceeded root "depth" limits.maxDepth)))
  | full {id : String} {todo : List String} {r : Resource} (htodo : w.top.todo = id :: todo)
      (hfresh : id ∉ w.ancestors) (hid : a.resource? id = some r) (hdepth : w.depth < limits.maxDepth)
      (hnodes : limits.maxNodes ≤ w.nodes) :
      Stepped a limits root w
        (.ended (w.skip todo) (.error (.treeLimitExceeded root "node" limits.maxNodes)))

theorem stepped (a : Adjacency) (limits : TreeLimits) (root : String) (w : Walk) :
    Stepped a limits root w (step a limits root w) := by
  unfold step
  split
  · next id todo htodo =>
    unfold stepChild
    split
    · next hseen => exact .cycle htodo hseen
    · next hfresh =>
      dsimp only
      split
      · next hid => exact .skip htodo hfresh hid
      · next r hid =>
        split
        · next hdepth => exact .deep htodo hfresh hid hdepth
        · next hdepth =>
          split
          · next hnodes => exact .full htodo hfresh hid (Nat.lt_of_not_le hdepth) hnodes
          · next hnodes =>
            exact .push htodo hfresh hid (Nat.lt_of_not_le hdepth) (Nat.lt_of_not_le hnodes)
  · next htodo =>
    unfold stepBack
    split
    · next hbelow => exact .done htodo hbelow
    · next parent below hbelow => exact .back htodo hbelow rfl rfl rfl rfl rfl

theorem run_of_ended {last : Walk} {result : Except Error ResourceNode}
    (h : step a limits root w = .ended last result) : run a limits root w = (last, result) := by
  rw [run]
  split
  · next _ _ hstep =>
    rw [h] at hstep
    cases hstep
    rfl
  · next _ hstep =>
    rw [h] at hstep
    cases hstep

theorem run_of_running {next : Walk} (h : step a limits root w = .running next) :
    run a limits root w = run a limits root next := by
  rw [run]
  split
  · next _ _ hstep =>
    rw [h] at hstep
    cases hstep
  · next _ hstep =>
    rw [h] at hstep
    cases hstep
    rfl

theorem run_induction {P : Walk → Prop} {Q : Walk → Except Error ResourceNode → Prop}
    (running : ∀ w next, P w → Stepped a limits root w (.running next) → P next)
    (ended : ∀ w last result, P w → Stepped a limits root w (.ended last result) → Q last result)
    (h : P w) : Q (run a limits root w).1 (run a limits root w).2 := by
  induction w using run.induct a limits root with
  | case1 w last result hstep =>
    have hview := stepped a limits root w
    rw [hstep] at hview
    rw [run_of_ended hstep]
    exact ended w last result h hview
  | case2 w next hstep _ ih =>
    have hview := stepped a limits root w
    rw [hstep] at hview
    rw [run_of_running hstep]
    exact ih (running w next h hview)

def resultWithin (a : Adjacency) (limits : TreeLimits) (root : String) :
    Nat → Walk → Option (Except Error ResourceNode)
  | 0, _ => none
  | n + 1, w =>
    match step a limits root w with
    | .running next => resultWithin a limits root n next
    | .ended _ result => some result

theorem run_of_resultWithin {n : Nat} {result : Except Error ResourceNode}
    (h : resultWithin a limits root n w = some result) : (run a limits root w).2 = result := by
  induction n generalizing w with
  | zero => cases h
  | succ n ih =>
    rw [resultWithin] at h
    cases hstep : step a limits root w with
    | running next =>
      rw [hstep] at h
      rw [run_of_running hstep]
      exact ih h
    | ended last _ =>
      rw [hstep] at h
      rw [run_of_ended hstep]
      exact Option.some.inj h

/-- The open nodes are a path of resources from the root to the top, and no id stands on it twice. -/
structure Open (a : Adjacency) (root : String) (w : Walk) : Prop where
  sound : ∀ n ∈ w.opened, n.Sound a
  linked : w.ids.IsChain fun child parent => child ∈ a.children parent
  rooted : w.ids.getLast? = some root
  nodup : w.ids.Nodup
  ancestors_eq : w.ancestors = w.ids

/-- The walk keeps count of its nodes, and neither they nor the levels exceed the limits. -/
structure Within (limits : TreeLimits) (w : Walk) : Prop where
  nodes_eq : w.nodes = OpenNode.sizeAll w.opened
  nodes_le : w.nodes ≤ max 1 limits.maxNodes
  height_le : OpenNode.heightAll w.opened ≤ max 1 limits.maxDepth

def Grows (a : Adjacency) (w : Walk) (t : ResourceNode) : Prop :=
  ∃ c, w.top.Closes a c ∧ OpenNode.Extends a w.below c t

theorem open_start {r : Resource} (hr : a.resource? r.id = some r) : Open a r.id (start a r) where
  sound := List.forall_mem_singleton.2 ⟨hr, fun _ hid => hid⟩
  linked := .singleton _
  rooted := rfl
  nodup := List.pairwise_singleton _ _
  ancestors_eq := rfl

theorem within_start (r : Resource) : Within limits (start a r) where
  nodes_eq := rfl
  nodes_le := Nat.le_max_left _ _
  height_le := Nat.le_max_left _ _

theorem grows_start_iff {r : Resource} (hr : a.resource? r.id = some r) (t : ResourceNode) :
    (start a r).Grows a t ↔ a.Unfolds r.id t := by
  constructor
  · rintro ⟨c, hc, rfl⟩
    exact (OpenNode.closes_enter_iff hr _).1 hc
  · intro h
    exact ⟨t, (OpenNode.closes_enter_iff hr t).2 h, rfl⟩

theorem Open.skip {id : String} {todo : List String} (h : Open a root w) (htodo : w.top.todo = id :: todo) :
    Open a root (w.skip todo) where
  sound := by
    obtain ⟨⟨hfound, hmem⟩, hbelow⟩ := List.forall_mem_cons.1 h.sound
    refine List.forall_mem_cons.2 ⟨⟨hfound, ?_⟩, hbelow⟩
    intro other hother
    exact hmem other (htodo ▸ List.mem_cons_of_mem id hother)
  linked := h.linked
  rooted := h.rooted
  nodup := h.nodup
  ancestors_eq := h.ancestors_eq

theorem Open.push {r : Resource} (h : Open a root w) (hr : a.resource? r.id = some r)
    (hfresh : r.id ∉ w.ancestors) (hmem : r.id ∈ a.children w.top.resource.id) :
    Open a root (w.push a r) where
  sound := List.forall_mem_cons.2 ⟨⟨hr, fun _ hid => hid⟩, h.sound⟩
  linked := .cons_cons hmem h.linked
  rooted := h.rooted
  nodup := by
    rw [h.ancestors_eq] at hfresh
    exact List.nodup_cons.2 ⟨hfresh, h.nodup⟩
  ancestors_eq := (if_neg hfresh).trans (congrArg (r.id :: ·) h.ancestors_eq)

theorem Open.step {next : Walk} (ha : a.Keyed) (h : Open a root w)
    (hstep : Stepped a limits root w (.running next)) : Open a root next := by
  cases hstep with
  | skip htodo hfresh hid => exact h.skip htodo
  | push htodo hfresh hid hdepth hnodes =>
    have hkey := ha _ _ hid
    subst hkey
    have hmem := (h.sound w.top List.mem_cons_self).todo _ (htodo ▸ List.mem_cons_self)
    exact (h.skip htodo).push hid hfresh hmem
  | @back parent below _ htodo hbelow htop hnext hancestors hnodes =>
    have hopened : next.opened = parent.attach w.top.close :: below := by rw [opened, htop, hnext]
    have hids : w.ids = w.top.resource.id :: next.ids := by
      rw [ids, ids, hopened, opened, hbelow]
      rfl
    have hsound := h.sound
    have hlinked := h.linked
    have hrooted := h.rooted
    have hnodup := h.nodup
    rw [opened, hbelow, List.forall_mem_cons, List.forall_mem_cons] at hsound
    rw [hids] at hlinked hrooted hnodup
    constructor
    case sound =>
      rw [hopened, List.forall_mem_cons]
      exact ⟨⟨hsound.2.1.found, hsound.2.1.todo⟩, hsound.2.2⟩
    case linked => exact hlinked.tail
    case rooted =>
      rw [ids, hopened] at hrooted ⊢
      rwa [List.map_cons, List.getLast?_cons_cons] at hrooted
    case nodup => exact (List.nodup_cons.1 hnodup).2
    case ancestors_eq => rw [hancestors, h.ancestors_eq, hids, List.erase_cons_head]

theorem Within.step {next : Walk} (h : Within limits w)
    (hstep : Stepped a limits root w (.running next)) : Within limits next := by
  have hnodes_eq := h.nodes_eq
  have hnodes_le := h.nodes_le
  have hheight := h.height_le
  cases hstep with
  | skip htodo hfresh hid => exact ⟨hnodes_eq, hnodes_le, hheight⟩
  | @push id todo r htodo hfresh hid hdepth hnodes =>
    have hopened : ((w.skip todo).push a r).opened = .enter a r :: (w.skip todo).opened := rfl
    constructor
    case nodes_eq =>
      rw [hopened, OpenNode.sizeAll, Nat.add_comm]
      exact congrArg (· + 1) hnodes_eq
    case nodes_le =>
      have hnext : ((w.skip todo).push a r).nodes = w.nodes + 1 := rfl
      omega
    case height_le =>
      have hdepth_eq := w.depth_eq
      rw [hopened, OpenNode.heightAll]
      refine Nat.max_le.2 ⟨?_, hheight⟩
      have hlength : (w.skip todo).opened.length = w.depth := by rw [hdepth_eq]; rfl
      have hone : (OpenNode.enter a r).height = 1 := rfl
      omega
  | @back parent below _ htodo hbelow htop hnext hancestors hnodes =>
    have hopened : next.opened = parent.attach w.top.close :: below := by rw [opened, htop, hnext]
    rw [opened, hbelow] at hnodes_eq hheight
    constructor
    case nodes_eq =>
      rw [hopened, hnodes, hnodes_eq, OpenNode.sizeAll, OpenNode.sizeAll, OpenNode.sizeAll,
        OpenNode.size_attach, OpenNode.count_close, Nat.add_assoc]
    case nodes_le => rwa [hnodes]
    case height_le =>
      rw [OpenNode.heightAll, OpenNode.heightAll, List.length_cons] at hheight
      rw [hopened, OpenNode.heightAll, OpenNode.height_attach, OpenNode.levels_close]
      omega

theorem grows_push_iff {r : Resource} {todo : List String} (htodo : w.top.todo = r.id :: todo)
    (hr : a.resource? r.id = some r) (t : ResourceNode) :
    ((w.skip todo).push a r).Grows a t ↔ w.Grows a t := by
  constructor
  · rintro ⟨c, hc, d, hd, ht⟩
    exact ⟨d, (OpenNode.closes_iff_of_some htodo hr d).2 ⟨c, (OpenNode.closes_enter_iff hr c).1 hc, hd⟩, ht⟩
  · rintro ⟨d, hd, ht⟩
    obtain ⟨c, hc, hd⟩ := (OpenNode.closes_iff_of_some htodo hr d).1 hd
    exact ⟨c, (OpenNode.closes_enter_iff hr c).2 hc, d, hd, ht⟩

theorem grows_iff_of_step {next : Walk} (ha : a.Keyed)
    (hstep : Stepped a limits root w (.running next)) (t : ResourceNode) : next.Grows a t ↔ w.Grows a t := by
  cases hstep with
  | skip htodo hfresh hid =>
    apply exists_congr
    intro c
    rw [OpenNode.closes_iff_of_none htodo hid]
    rfl
  | push htodo hfresh hid hdepth hnodes =>
    have hkey := ha _ _ hid
    subst hkey
    exact grows_push_iff htodo hid t
  | back htodo hbelow htop hnext hancestors hnodes =>
    rw [Grows, Grows, htop, hnext, hbelow]
    constructor
    · rintro ⟨d, hd, ht⟩
      exact ⟨w.top.close, (OpenNode.closes_iff_of_done htodo _).2 rfl, d, hd, ht⟩
    · rintro ⟨c, hc, d, hd, ht⟩
      rw [OpenNode.closes_iff_of_done htodo] at hc
      subst hc
      exact ⟨d, hd, ht⟩

theorem Grows.size_le {t : ResourceNode} (h : w.Grows a t) : OpenNode.sizeAll w.opened ≤ t.count := by
  obtain ⟨c, hc, ht⟩ := h
  have hsize := hc.size_le
  have hcount := ht.count_le
  rw [opened, OpenNode.sizeAll]
  omega

theorem Grows.depth_le {t : ResourceNode} (h : w.Grows a t) : w.depth ≤ t.levels := by
  obtain ⟨c, hc, ht⟩ := h
  have hheight := hc.height_le
  have hlevels := ht.levels_le
  have hdepth := w.depth_eq
  rw [OpenNode.height] at hheight
  omega

theorem Open.loop {id : String} {todo : List String} (h : Open a root w) (htodo : w.top.todo = id :: todo)
    (hseen : id ∈ w.ancestors) : a.Loop root id (w.path ++ [id]) := by
  have hpath : w.path ++ [id] = (id :: w.ids).reverse := List.reverse_cons.symm
  have hmem : id ∈ a.children w.top.resource.id :=
    (h.sound w.top List.mem_cons_self).todo id (htodo ▸ List.mem_cons_self)
  rw [h.ancestors_eq] at hseen
  rw [hpath]
  constructor
  case starts =>
    rw [List.head?_reverse, ← h.rooted]
    rfl
  case stored =>
    intro other hother
    have hids : other ∈ w.ids := by
      rcases List.mem_cons.1 (List.mem_reverse.1 hother) with rfl | hother
      · exact hseen
      · exact hother
    obtain ⟨n, hn, rfl⟩ := List.mem_map.1 hids
    exact Option.isSome_of_eq_some (h.sound n hn).found
  case linked => exact List.isChain_reverse.2 (.cons_cons hmem h.linked)
  case ends => rw [List.getLast?_reverse, List.head?_cons]
  case nodup =>
    rw [List.dropLast_reverse, List.tail_cons, List.nodup_reverse]
    exact h.nodup
  case mem =>
    rw [List.dropLast_reverse, List.tail_cons, List.mem_reverse]
    exact hseen

end Walk

inductive Adjacency.Ending (a : Adjacency) (limits : TreeLimits) (root : String) :
    Except Error ResourceNode → Prop where
  | tree {t : ResourceNode} (unfolds : a.Unfolds root t) (count_le : t.count ≤ max 1 limits.maxNodes)
      (levels_le : t.levels ≤ max 1 limits.maxDepth) : Ending a limits root (.ok t)
  | cycle {id : String} {path : List String} (loop : a.Loop root id path) :
      Ending a limits root (.error (.cycleDetected id path))
  | deep (lt_levels : ∀ t, a.Unfolds root t → max 1 limits.maxDepth < t.levels) :
      Ending a limits root (.error (.treeLimitExceeded root "depth" limits.maxDepth))
  | full (lt_count : ∀ t, a.Unfolds root t → max 1 limits.maxNodes < t.count) :
      Ending a limits root (.error (.treeLimitExceeded root "node" limits.maxNodes))

namespace Walk

variable {a : Adjacency} {limits : TreeLimits} {root : String} {w : Walk}

structure Sound (a : Adjacency) (limits : TreeLimits) (root : String) (w : Walk) : Prop where
  isOpen : Open a root w
  isWithin : Within limits w
  grows_iff : ∀ t, w.Grows a t ↔ a.Unfolds root t

theorem Sound.step {next : Walk} (ha : a.Keyed) (h : Sound a limits root w)
    (hstep : Stepped a limits root w (.running next)) : Sound a limits root next where
  isOpen := h.isOpen.step ha hstep
  isWithin := h.isWithin.step hstep
  grows_iff t := (grows_iff_of_step ha hstep t).trans (h.grows_iff t)

/-- With one more child begun the walk still has room in every tree it can grow into. -/
theorem Sound.lt_of_child {id : String} {todo : List String} {r : Resource} {t : ResourceNode}
    (ha : a.Keyed) (h : Sound a limits root w) (htodo : w.top.todo = id :: todo)
    (hid : a.resource? id = some r) (ht : a.Unfolds root t) : w.nodes < t.count ∧ w.depth < t.levels := by
  have hkey := ha _ _ hid
  subst hkey
  have hgrows := (grows_push_iff htodo hid t).2 ((h.grows_iff t).2 ht)
  have hsize := hgrows.size_le
  have hdepth := hgrows.depth_le
  have hnodes := h.isWithin.nodes_eq
  have hopened : ((w.skip todo).push a r).opened = .enter a r :: (w.skip todo).opened := rfl
  have hone : (OpenNode.enter a r).size = 1 := rfl
  have hrest : OpenNode.sizeAll (w.skip todo).opened = OpenNode.sizeAll w.opened := rfl
  rw [hopened, OpenNode.sizeAll, hone, hrest] at hsize
  have hnext : ((w.skip todo).push a r).depth = w.depth + 1 := rfl
  omega

theorem Sound.ending {last : Walk} {result : Except Error ResourceNode} (ha : a.Keyed)
    (h : Sound a limits root w) (hstep : Stepped a limits root w (.ended last result)) :
    a.Ending limits root result := by
  cases hstep with
  | done htodo hbelow =>
    have hgrows : w.Grows a w.top.close := by
      refine ⟨w.top.close, (OpenNode.closes_iff_of_done htodo _).2 rfl, ?_⟩
      rw [hbelow]
      rfl
    have hnodes := h.isWithin.nodes_eq
    have hheight := h.isWithin.height_le
    rw [opened, hbelow, OpenNode.sizeAll, OpenNode.sizeAll, Nat.add_zero] at hnodes
    rw [opened, hbelow, OpenNode.heightAll] at hheight
    apply Adjacency.Ending.tree ((h.grows_iff _).1 hgrows)
    · rw [OpenNode.count_close, ← hnodes]
      exact h.isWithin.nodes_le
    · rw [OpenNode.levels_close]
      exact Nat.le_trans (Nat.le_max_left _ _) hheight
  | cycle htodo hseen => exact .cycle (h.isOpen.loop htodo hseen)
  | deep htodo hfresh hid hdepth =>
    apply Adjacency.Ending.deep
    intro t ht
    have hlt := (h.lt_of_child ha htodo hid ht).2
    have hpos := w.depth_eq
    omega
  | full htodo hfresh hid hdepth hnodes =>
    apply Adjacency.Ending.full
    intro t ht
    have hlt := (h.lt_of_child ha htodo hid ht).1
    have hpos := h.isWithin.nodes_eq
    rw [opened, OpenNode.sizeAll, OpenNode.size] at hpos
    omega

theorem ending_run {r : Resource} (ha : a.Keyed) (hr : a.resource? root = some r) :
    a.Ending limits root ((start a r).run a limits root).2 := by
  have hkey := ha _ _ hr
  subst hkey
  have hstart : Sound a limits r.id (start a r) := ⟨open_start hr, within_start r, grows_start_iff hr⟩
  refine run_induction (Q := fun _ result => a.Ending limits r.id result) ?_ ?_ hstart
  · intro w next h hstep
    exact h.step ha hstep
  · intro w last result h hstep
    exact h.ending ha hstep

end Walk

end Inventory

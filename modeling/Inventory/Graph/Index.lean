import Inventory.Graph.Store
import Std.Data.TreeSet.Lemmas

/-! # The index of a graph

What is derived from the resources in one pass over all of them: the children and the parents of each id, the
resources of each type, and those without a parent. The children of a resource are those it declares,
followed by the resources that name it as their parent.
-/

namespace Inventory

/-- The ids of a list, each where it comes first, without those in a set. -/
def distinctBut (seen : Std.TreeSet String) : List String → List String
  | [] => []
  | id :: rest =>
    if seen.contains id then distinctBut seen rest else id :: distinctBut (seen.insert id) rest

def distinct (ids : List String) : List String :=
  distinctBut ∅ ids

theorem mem_distinctBut {seen : Std.TreeSet String} {ids : List String} {id : String} :
    id ∈ distinctBut seen ids ↔ id ∈ ids ∧ id ∉ seen := by
  induction ids generalizing seen with
  | nil => simp [distinctBut]
  | cons head rest ih =>
    simp only [distinctBut, ← Std.TreeSet.mem_iff_contains]
    split
    · next h =>
      rw [ih, List.mem_cons]
      exact ⟨fun ⟨hr, hs⟩ => ⟨.inr hr, hs⟩, fun ⟨hr, hs⟩ => ⟨hr.resolve_left fun heq => hs (heq ▸ h), hs⟩⟩
    · next h =>
      rw [List.mem_cons, ih, List.mem_cons, Std.TreeSet.mem_insert, Std.compare_eq_iff_eq]
      by_cases heq : id = head
      · simp [heq, h]
      · simp [heq, Ne.symm heq]

theorem mem_distinct {ids : List String} {id : String} : id ∈ distinct ids ↔ id ∈ ids := by
  simp [distinct, mem_distinctBut]

theorem nodup_distinctBut (seen : Std.TreeSet String) (ids : List String) :
    (distinctBut seen ids).Nodup := by
  induction ids generalizing seen with
  | nil => exact .nil
  | cons head rest ih =>
    simp only [distinctBut]
    split
    · exact ih seen
    · exact List.nodup_cons.2 ⟨fun h => (mem_distinctBut.1 h).2 (by simp), ih _⟩

theorem nodup_distinct (ids : List String) : (distinct ids).Nodup :=
  nodup_distinctBut ∅ ids

abbrev Links := Std.TreeMap String (List String)

namespace Links

def idsOf (links : Links) (id : String) : List String :=
  links.getD id []

/-- For each first id of some pairs the second ids that stand with it. -/
def ofPairs (pairs : List (String × String)) : Links :=
  pairs.foldr (fun (key, id) links => links.alter key fun old => some (id :: old.getD [])) ∅

theorem idsOf_ofPairs (pairs : List (String × String)) (key : String) :
    (ofPairs pairs).idsOf key = (pairs.filter (·.1 == key)).map (·.2) := by
  induction pairs with
  | nil => simp [ofPairs, idsOf]
  | cons pair rest ih =>
    obtain ⟨first, second⟩ := pair
    rw [idsOf, Std.TreeMap.getD_eq_getD_getElem?] at ih ⊢
    simp only [ofPairs, List.foldr_cons, Std.TreeMap.getElem?_alter, Std.compare_eq_iff_eq] at ih ⊢
    by_cases h : first = key
    · subst h; simp [ih]
    · simp [h, ih]

end Links

structure Index where
  children : Links
  parents : Links
  byType : Links
  topLevel : List String

namespace Index

def empty : Index := ⟨∅, ∅, ∅, []⟩

instance : Inhabited Index := ⟨empty⟩

/-- Each id with a child of it: first those that resources declare, then those that name a parent. -/
def childPairs (resources : List Resource) : List (String × String) :=
  resources.flatMap (fun r => r.childIds.map (r.id, ·)) ++
    resources.filterMap fun r => r.parentId.map (·, r.id)

def allChildren (resources : List Resource) : Links :=
  (Links.ofPairs (childPairs resources)).map fun _ ids => distinct ids

/-- The ids with children: those that belong to no resource, then those of the resources in order. -/
def parentOrder (resources : List Resource) (children : Links) : List String :=
  let ids := resources.map (·.id)
  let known := Std.TreeSet.ofList ids
  children.keys.filter (!known.contains ·) ++ ids

def allParents (resources : List Resource) (children : Links) : Links :=
  .ofPairs ((parentOrder resources children).flatMap fun parent =>
    (children.idsOf parent).map (·, parent))

def ofResources (resources : List Resource) : Index :=
  let children := allChildren resources
  { children
    parents := allParents resources children
    byType := .ofPairs (resources.map fun r => (r.typeId, r.id))
    topLevel := (resources.filter (·.isTopLevel)).map (·.id) }

theorem idsOf_allChildren (resources : List Resource) (id : String) :
    (allChildren resources).idsOf id =
      distinct (((childPairs resources).filter (·.1 == id)).map (·.2)) := by
  rw [← Links.idsOf_ofPairs, Links.idsOf, Links.idsOf, allChildren,
    Std.TreeMap.getD_eq_getD_getElem?, Std.TreeMap.getD_eq_getD_getElem?, Std.TreeMap.getElem?_map]
  cases (Links.ofPairs (childPairs resources))[id]? <;> rfl

end Index

end Inventory

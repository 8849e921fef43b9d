import Inventory.Graph.Basic
import Inventory.Proofs.Repetition

/-! # What the index of a store says

The children that `Index.ofResources` gives an id are those its resource declares, then those that name
it (`Store.idsOf_allChildren_records`). The parents are the children turned round: first a stranger, an
id that is no resource, then resources in their order. A resource names one parent only, so there is at
most one stranger (`Store.length_strangers_le`).
-/

namespace Inventory

theorem distinctBut_eq (seen : Std.TreeSet String) (ids : List String) :
    distinctBut seen ids = (ids.filter fun id => !seen.contains id).eraseDups := by
  induction ids generalizing seen with
  | nil => rfl
  | cons head rest ih =>
    rw [distinctBut, List.filter_cons]
    cases h : seen.contains head with
    | true => exact ih seen
    | false =>
      have hrest : (rest.filter fun id => !seen.contains id).filter (fun id => !id == head) =
          rest.filter fun id => !(seen.insert head).contains id := by
        rw [List.filter_filter]
        refine List.filter_congr fun id _ => ?_
        have hcompare : (compare head id == .eq) = (id == head) := by
          rw [Bool.eq_iff_iff, beq_iff_eq, beq_iff_eq, Std.compare_eq_iff_eq, eq_comm]
        rw [Std.TreeSet.contains_insert, hcompare, Bool.not_or]
      simp only [Bool.not_false, if_true, Bool.false_eq_true, if_false, List.eraseDups_cons, hrest, ih]

theorem distinct_eq_eraseDups (ids : List String) : distinct ids = ids.eraseDups := by
  have hall : ids.filter (fun id => !(∅ : Std.TreeSet String).contains id) = ids :=
    List.filter_eq_self.2 fun id _ => by simp
  rw [distinct, distinctBut_eq, hall]

namespace Store

variable {α : Type} [HasId α] (s : Store α)

theorem get?_id_of_mem_getAll {ids : List String} {record : α} (h : record ∈ s.getAll ids) :
    s.get? (HasId.id record) = some record := by
  obtain ⟨id, -, hid⟩ := List.mem_filterMap.1 h
  rwa [id_of_get? hid]

theorem get?_id_of_mem {record : α} (h : record ∈ s.records) :
    s.get? (HasId.id record) = some record :=
  s.get?_id_of_mem_getAll h

theorem mem_records_of_get? {id : String} {record : α} (h : s.get? id = some record) :
    record ∈ s.records := by
  refine List.mem_filterMap.2 ⟨id, ?_, h⟩
  rw [mem_ids_iff, h]
  rfl

theorem getAll_map_id {records : List α} (h : ∀ record ∈ records, record ∈ s.records) :
    s.getAll (records.map HasId.id) = records := by
  induction records with
  | nil => rfl
  | cons record rest ih =>
    rw [List.forall_mem_cons] at h
    have hrest := ih h.2
    rw [getAll] at hrest ⊢
    rw [List.map_cons, List.filterMap_cons_some (s.get?_id_of_mem h.1), hrest]

theorem filter_id_records (id : String) :
    s.records.filter (fun record => HasId.id record == id) = (s.get? id).toList := by
  have hids : (s.records.filter fun record => HasId.id record == id).map HasId.id =
      s.ids.filter (· == id) := by
    rw [← s.map_id_records, List.filter_map]
    rfl
  rw [filter_beq_of_nodup s.nodup_ids] at hids
  cases h : s.get? id with
  | none =>
    have hnot : id ∉ s.ids := by
      rw [mem_ids_iff, h]
      exact Bool.false_ne_true
    rw [if_neg hnot] at hids
    exact List.map_eq_nil_iff.1 hids
  | some record =>
    have hmem : id ∈ s.ids := by
      rw [mem_ids_iff, h]
      rfl
    rw [if_pos hmem] at hids
    obtain ⟨other, hother, -⟩ := List.map_eq_singleton_iff.1 hids
    have hin : other ∈ s.records.filter fun record => HasId.id record == id := by
      rw [hother]
      exact List.mem_singleton_self other
    obtain ⟨hstored, hid⟩ := List.mem_filter.1 hin
    have hget := s.get?_id_of_mem hstored
    rw [beq_iff_eq.1 hid, h] at hget
    rw [hother, Option.some.inj hget]
    rfl

end Store

namespace Index

theorem idsOf_declared (resources : List Resource) (id : String) :
    ((resources.flatMap fun r => r.childIds.map (r.id, ·)).filter (·.1 == id)).map (·.2) =
      (resources.filter (·.id == id)).flatMap (·.childIds) := by
  induction resources with
  | nil => rfl
  | cons r rest ih =>
    rw [List.flatMap_cons, List.filter_append, List.map_append, ih, List.filter_map, List.map_map,
      List.filter_cons]
    by_cases h : r.id == id
    · simp [Function.comp_def, h]
    · simp [Function.comp_def, h]

theorem idsOf_named (resources : List Resource) (id : String) :
    ((resources.filterMap fun r => r.parentId.map (·, r.id)).filter (·.1 == id)).map (·.2) =
      (resources.filter (·.parentId == some id)).map (·.id) := by
  induction resources with
  | nil => rfl
  | cons r rest ih =>
    rw [List.filter_cons]
    cases hparent : r.parentId with
    | none =>
      rw [List.filterMap_cons_none (by rw [hparent]; rfl), ih]
      rfl
    | some parent =>
      rw [List.filterMap_cons_some (by rw [hparent]; rfl), List.filter_cons]
      by_cases h : parent = id
      · simp [h, ih]
      · simp [h, ih]

/-- Turning the links of some parents round: an id gets those of them that have it among their children.
-/
theorem idsOf_turned {children : String → List String} (hnodup : ∀ parent, (children parent).Nodup)
    (order : List String) (id : String) :
    ((order.flatMap fun parent => (children parent).map (·, parent)).filter (·.1 == id)).map (·.2) =
      order.filter fun parent => id ∈ children parent := by
  induction order with
  | nil => rfl
  | cons parent rest ih =>
    have hone : (((children parent).map (·, parent)).filter (·.1 == id)).map (·.2) =
        if id ∈ children parent then [parent] else [] := by
      rw [List.filter_map, List.map_map]
      have hfilter := filter_beq_of_nodup (hnodup parent) id
      change ((children parent).filter (· == id)).map (fun _ => parent) = _
      rw [hfilter]
      split <;> rfl
    rw [List.flatMap_cons, List.filter_append, List.map_append, ih, hone]
    by_cases h : id ∈ children parent
    · rw [if_pos h, List.filter_cons, if_pos (decide_eq_true h), List.singleton_append]
    · rw [if_neg h, List.filter_cons, if_neg (by simpa using h), List.nil_append]

theorem nodup_idsOf_allChildren (resources : List Resource) (id : String) :
    ((allChildren resources).idsOf id).Nodup := by
  rw [idsOf_allChildren]
  exact nodup_distinct _

theorem idsOf_allParents (resources : List Resource) (id : String) :
    (allParents resources (allChildren resources)).idsOf id =
      (parentOrder resources (allChildren resources)).filter
        fun parent => id ∈ (allChildren resources).idsOf parent := by
  rw [allParents, Links.idsOf_ofPairs, idsOf_turned (nodup_idsOf_allChildren resources)]

end Index

namespace Store

variable (s : Store Resource)

def declared (id : String) : List String :=
  ((s.get? id).map (·.childIds)).getD []

def named (id : String) : List String :=
  (s.records.filter (·.parentId == some id)).map (·.id)

theorem mem_named_iff {parent id : String} :
    id ∈ s.named parent ↔ ∃ r, s.get? id = some r ∧ r.parentId = some parent := by
  rw [named, List.mem_map]
  constructor
  · rintro ⟨r, hr, rfl⟩
    obtain ⟨hmem, hparent⟩ := List.mem_filter.1 hr
    exact ⟨r, s.get?_id_of_mem hmem, beq_iff_eq.1 hparent⟩
  · rintro ⟨r, hget, hparent⟩
    refine ⟨r, List.mem_filter.2 ⟨s.mem_records_of_get? hget, beq_iff_eq.2 hparent⟩, ?_⟩
    exact id_of_get? hget

theorem nodup_named (id : String) : (s.named id).Nodup := by
  have hids : (s.records.map (·.id)).Nodup := s.map_id_records ▸ s.nodup_ids
  exact hids.sublist (List.filter_sublist.map _)

theorem idsOf_allChildren_records (id : String) :
    (Index.allChildren s.records).idsOf id =
      (s.declared id).eraseDups ++ (s.named id).filter fun child => child ∉ s.declared id := by
  have hdeclared : (s.records.filter (·.id == id)).flatMap (·.childIds) = s.declared id := by
    have hfilter : s.records.filter (·.id == id) = (s.get? id).toList := s.filter_id_records id
    rw [hfilter, declared]
    cases s.get? id with
    | none => rfl
    | some r => exact List.append_nil r.childIds
  have hremove : (s.named id).removeAll (s.declared id) =
      (s.named id).filter fun child => child ∉ s.declared id := by
    refine List.filter_congr fun child _ => ?_
    simp
  rw [Index.idsOf_allChildren, Index.childPairs, List.filter_append, List.map_append, Index.idsOf_declared,
    Index.idsOf_named, hdeclared, ← named, distinct_eq_eraseDups, List.eraseDups_append, hremove,
    eraseDups_of_nodup ((s.nodup_named id).filter _)]

/-- The parents of an id that are no resources. -/
def strangers (id : String) : List String :=
  ((Index.allChildren s.records).keys.filter (!(Std.TreeSet.ofList (s.records.map (·.id))).contains ·)).filter
    fun parent => id ∈ (Index.allChildren s.records).idsOf parent

theorem idsOf_allParents_records (id : String) :
    (Index.allParents s.records (Index.allChildren s.records)).idsOf id =
      s.strangers id ++ s.ids.filter fun parent => id ∈ (Index.allChildren s.records).idsOf parent := by
  have hids : s.records.map (·.id) = s.ids := s.map_id_records
  rw [Index.idsOf_allParents, Index.parentOrder, List.filter_append, strangers, hids]

theorem mem_strangers_iff {parent id : String} :
    parent ∈ s.strangers id ↔ id ∈ (Index.allChildren s.records).idsOf parent ∧ parent ∉ s.ids := by
  have hids : s.records.map (·.id) = s.ids := s.map_id_records
  have hkey :
      id ∈ (Index.allChildren s.records).idsOf parent → parent ∈ (Index.allChildren s.records).keys := by
    intro hchild
    rw [Std.TreeMap.mem_keys]
    by_contra hnot
    rw [Links.idsOf, Std.TreeMap.getD_eq_fallback hnot] at hchild
    cases hchild
  rw [strangers, hids, List.mem_filter, List.mem_filter]
  simp only [Bool.not_eq_true', Std.TreeSet.contains_ofList, decide_eq_true_eq]
  constructor
  · rintro ⟨⟨-, hnot⟩, hchild⟩
    exact ⟨hchild, by simpa using hnot⟩
  · rintro ⟨hchild, hnot⟩
    exact ⟨⟨hkey hchild, by simpa using hnot⟩, hchild⟩

theorem nodup_strangers (id : String) : (s.strangers id).Nodup :=
  (Std.TreeMap.nodup_keys.filter _).filter _

/-- A stranger is the one parent that the resource names. -/
theorem parentId_of_mem_strangers {parent id : String} (h : parent ∈ s.strangers id) :
    ∃ r, s.get? id = some r ∧ r.parentId = some parent := by
  obtain ⟨hchild, hnot⟩ := s.mem_strangers_iff.1 h
  have hdeclared : s.declared parent = [] := by
    rw [mem_ids_iff, Bool.not_eq_true, Option.isSome_eq_false_iff, Option.isNone_iff_eq_none] at hnot
    rw [declared, hnot]
    rfl
  rw [idsOf_allChildren_records, hdeclared, List.eraseDups_nil, List.nil_append] at hchild
  exact s.mem_named_iff.1 (List.mem_of_mem_filter hchild)

theorem eq_of_mem_strangers {p q id : String} (hp : p ∈ s.strangers id) (hq : q ∈ s.strangers id) :
    p = q := by
  obtain ⟨r, hr, hparent⟩ := s.parentId_of_mem_strangers hp
  obtain ⟨r', hr', hparent'⟩ := s.parentId_of_mem_strangers hq
  rw [hr, Option.some.injEq] at hr'
  rw [← hr', hparent] at hparent'
  exact Option.some.inj hparent'

theorem length_strangers_le (id : String) : (s.strangers id).length ≤ 1 := by
  have hnodup := s.nodup_strangers id
  have hsame : ∀ p ∈ s.strangers id, ∀ q ∈ s.strangers id, p = q := by
    intro p hp q hq
    exact s.eq_of_mem_strangers hp hq
  match hlist : s.strangers id with
  | [] => exact Nat.zero_le 1
  | [_] => exact Nat.le_refl 1
  | p :: q :: rest =>
    rw [hlist] at hnodup hsame
    have heq := hsame p List.mem_cons_self q (List.mem_cons_of_mem p List.mem_cons_self)
    exact absurd (heq ▸ List.mem_cons_self) (List.nodup_cons.1 hnodup).1

end Store

end Inventory

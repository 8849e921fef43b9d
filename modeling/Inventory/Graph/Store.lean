import Inventory.Graph.Record
import Std.Data.TreeMap.Lemmas

/-! # Stores of records

A store keeps one record for each id, in the order in which the ids first came. The last record written under
an id counts; it takes the place of the one before.
-/

namespace Inventory

structure Store (α : Type) [HasId α] where
  /-- The ids, the one that came last first. -/
  newestFirst : List String
  byId : Std.TreeMap String α
  nodup : newestFirst.Nodup
  mem_iff : ∀ id, id ∈ newestFirst ↔ id ∈ byId
  id_eq : ∀ id record, byId[id]? = some record → HasId.id record = id

namespace Store

variable {α : Type} [HasId α]

def empty : Store α where
  newestFirst := []
  byId := ∅
  nodup := .nil
  mem_iff := by simp
  id_eq := by simp

instance : Inhabited (Store α) := ⟨empty⟩

def put (s : Store α) (record : α) : Store α where
  newestFirst :=
    if s.byId.contains (HasId.id record) then s.newestFirst
    else HasId.id record :: s.newestFirst
  byId := s.byId.insert (HasId.id record) record
  nodup := by
    split
    · exact s.nodup
    · next h => exact List.nodup_cons.2 ⟨fun hm => h ((s.mem_iff _).1 hm), s.nodup⟩
  mem_iff id := by
    have := s.mem_iff id
    split
    · next h =>
      simp only [Std.TreeMap.mem_insert, Std.compare_eq_iff_eq, this]
      exact ⟨.inr, fun hid => hid.elim (fun heq => heq ▸ h) fun hmem => hmem⟩
    · simp only [List.mem_cons, Std.TreeMap.mem_insert, Std.compare_eq_iff_eq, this]
      exact or_congr_left eq_comm
  id_eq id r h := by
    simp only [Std.TreeMap.getElem?_insert, Std.compare_eq_iff_eq] at h
    split at h
    · next heq => rw [← Option.some.inj h, heq]
    · exact s.id_eq id r h

def get? (s : Store α) (id : String) : Option α :=
  s.byId[id]?

def contains (s : Store α) (id : String) : Bool :=
  s.byId.contains id

def ids (s : Store α) : List String :=
  s.newestFirst.reverse

/-- The records of those ids that have one. -/
def getAll (s : Store α) (ids : List String) : List α :=
  ids.filterMap s.get?

def records (s : Store α) : List α :=
  s.getAll s.ids

def size (s : Store α) : Nat :=
  s.newestFirst.length

theorem get?_empty (id : String) : (empty : Store α).get? id = none := by
  simp [get?, empty]

theorem get?_put (s : Store α) (record : α) (id : String) :
    (s.put record).get? id = if id = HasId.id record then some record else s.get? id := by
  simp only [get?, put, Std.TreeMap.getElem?_insert, Std.compare_eq_iff_eq]
  simp only [eq_comm]

theorem id_of_get? {s : Store α} {id : String} {record : α} (h : s.get? id = some record) :
    HasId.id record = id :=
  s.id_eq id record h

theorem mem_ids_iff (s : Store α) (id : String) : id ∈ s.ids ↔ (s.get? id).isSome := by
  rw [ids, List.mem_reverse, s.mem_iff, Std.TreeMap.mem_iff_isSome_getElem?, get?]

theorem nodup_ids (s : Store α) : s.ids.Nodup :=
  List.pairwise_reverse.2 (s.nodup.imp Ne.symm)

theorem ids_put (s : Store α) (record : α) :
    (s.put record).ids =
      if HasId.id record ∈ s.ids then s.ids else s.ids ++ [HasId.id record] := by
  have h : s.byId.contains (HasId.id record) = true ↔ HasId.id record ∈ s.ids := by
    rw [ids, List.mem_reverse, s.mem_iff, Std.TreeMap.contains_iff_mem]
  by_cases hmem : HasId.id record ∈ s.ids
  · rw [if_pos hmem]
    exact congrArg List.reverse (if_pos (h.2 hmem))
  · rw [if_neg hmem]
    exact (congrArg List.reverse (if_neg (hmem ∘ h.1))).trans List.reverse_cons

theorem map_id_getAll {s : Store α} {ids : List String} (h : ∀ id ∈ ids, (s.get? id).isSome) :
    (s.getAll ids).map HasId.id = ids := by
  induction ids with
  | nil => rfl
  | cons id rest ih =>
    obtain ⟨record, hrecord⟩ := Option.isSome_iff_exists.1 (h id List.mem_cons_self)
    have hrest := ih fun other hother => h other (List.mem_cons_of_mem _ hother)
    rw [getAll] at hrest ⊢
    rw [List.filterMap_cons_some hrecord, List.map_cons, id_of_get? hrecord, hrest]

theorem map_id_records (s : Store α) : s.records.map HasId.id = s.ids :=
  map_id_getAll fun id hid => (s.mem_ids_iff id).1 hid

end Store

end Inventory

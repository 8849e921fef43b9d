import Mathlib.Data.List.Induction
import Mathlib.Data.List.Nodup

/-! # Lists without repetition

Of ids that come several times the first place counts. `eraseDups_concat` says so from the back, where a run
of writes goes on.
-/

namespace Inventory

theorem eraseDups_concat (ids : List String) (id : String) :
    (ids ++ [id]).eraseDups = if id ∈ ids.eraseDups then ids.eraseDups else ids.eraseDups ++ [id] := by
  by_cases h : id ∈ ids
  · have hgone : [id].removeAll ids = [] := by simp [List.removeAll, h]
    rw [if_pos (List.mem_eraseDups.2 h), List.eraseDups_append, hgone, List.eraseDups_nil, List.append_nil]
  · have hkept : [id].removeAll ids = [id] := by simp [List.removeAll, h]
    rw [if_neg (mt List.mem_eraseDups.1 h), List.eraseDups_append, hkept]
    rfl

theorem nodup_eraseDups (ids : List String) : ids.eraseDups.Nodup := by
  induction ids using List.reverseRecOn with
  | nil => exact .nil
  | append_singleton ids id ih =>
    rw [eraseDups_concat]
    split
    · exact ih
    · next h => exact List.nodup_append_comm.1 (List.nodup_cons.2 ⟨h, ih⟩)

theorem eraseDups_of_nodup {ids : List String} (h : ids.Nodup) : ids.eraseDups = ids := by
  induction ids with
  | nil => rfl
  | cons head rest ih =>
    obtain ⟨hhead, hrest⟩ := List.nodup_cons.1 h
    have hall : rest.filter (fun id => !id == head) = rest := by
      refine List.filter_eq_self.2 fun id hid => ?_
      rw [beq_false_of_ne (ne_of_mem_of_not_mem hid hhead)]
      rfl
    rw [List.eraseDups_cons, hall, ih hrest]

theorem filter_beq_of_nodup {ids : List String} (h : ids.Nodup) (id : String) :
    ids.filter (· == id) = if id ∈ ids then [id] else [] := by
  rw [List.filter_beq, h.count]
  split <;> rfl

end Inventory

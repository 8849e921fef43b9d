import Inventory.Proofs.Json.Lexing

/-! # Nesting and the limit on it

A limit of nesting leaves a datum as it is if and only if the datum does not exceed it: one that is not
too deep stays (`cut_of_depth_le`), one that is too deep has an undefined part afterwards
(`isDefined_cut_of_lt`). What is left keeps to the limit (`depth_cut_le`).
-/

namespace Inventory.Datum

theorem depthItems_le_iff {items : List Datum} {n : Nat} :
    depthItems items ≤ n ↔ ∀ d ∈ items, d.depth ≤ n := by
  induction items with
  | nil => simp [depthItems]
  | cons d rest ih => rw [depthItems, Nat.max_le, List.forall_mem_cons, ih]

theorem depthEntries_le_iff {entries : List (Key × Datum)} {n : Nat} :
    depthEntries entries ≤ n ↔ ∀ e ∈ entries, e.2.depth ≤ n := by
  induction entries with
  | nil => simp [depthEntries]
  | cons e rest ih => rw [depthEntries, Nat.max_le, List.forall_mem_cons, ih]

@[simp] theorem depth_object_nil : (object []).depth = 1 := rfl

@[simp] theorem depth_object_cons (key : String) (d : Datum) (rest : List (String × Datum)) :
    (object ((key, d) :: rest)).depth = max (d.depth + 1) (object rest).depth := by
  rw [object, depth, List.map_cons, depthEntries, object, depth, Nat.add_max_add_right]

theorem depthItems_reverse (items : List Datum) : depthItems items.reverse = depthItems items := by
  refine Nat.le_antisymm (depthItems_le_iff.2 fun d hd => ?_) (depthItems_le_iff.2 fun d hd => ?_)
  · exact depthItems_le_iff.1 (Nat.le_refl _) d (List.mem_reverse.1 hd)
  · exact depthItems_le_iff.1 (Nat.le_refl _) d (List.mem_reverse.2 hd)

theorem depthEntries_reverse (entries : List (Key × Datum)) :
    depthEntries entries.reverse = depthEntries entries := by
  refine Nat.le_antisymm (depthEntries_le_iff.2 fun e he => ?_) (depthEntries_le_iff.2 fun e he => ?_)
  · exact depthEntries_le_iff.1 (Nat.le_refl _) e (List.mem_reverse.1 he)
  · exact depthEntries_le_iff.1 (Nat.le_refl _) e (List.mem_reverse.2 he)

mutual

theorem cut_of_depth_le : ∀ (d : Datum) {levels : Nat}, d.depth ≤ levels → d.cut levels = d
  | .null, _, _ | .bool _, _, _ | .unsigned _, _, _ | .signed _, _, _ | .real _, _, _ | .text _, _, _
  | .bytes _, _, _ | .undefined, _, _ => by rw [cut] <;> simp
  | .list items, 0, h => by simp [depth] at h
  | .list items, levels + 1, h => by
    rw [cut, cutItems_of_depth_le items (Nat.le_of_succ_le_succ h)]
  | .map entries, 0, h => by simp [depth] at h
  | .map entries, levels + 1, h => by
    rw [cut, cutEntries_of_depth_le entries (Nat.le_of_succ_le_succ h)]

theorem cutItems_of_depth_le : ∀ (items : List Datum) {levels : Nat},
    depthItems items ≤ levels → cutItems levels items = items
  | [], _, _ => rfl
  | d :: rest, levels, h => by
    rw [depthItems, Nat.max_le] at h
    rw [cutItems, cut_of_depth_le d h.1, cutItems_of_depth_le rest h.2]

theorem cutEntries_of_depth_le : ∀ (entries : List (Key × Datum)) {levels : Nat},
    depthEntries entries ≤ levels → cutEntries levels entries = entries
  | [], _, _ => rfl
  | (key, d) :: rest, levels, h => by
    rw [depthEntries, Nat.max_le] at h
    rw [cutEntries, cut_of_depth_le d h.1, cutEntries_of_depth_le rest h.2]

end

mutual

theorem isDefined_cut_of_lt : ∀ (d : Datum) {levels : Nat}, levels < d.depth →
    (d.cut levels).isDefined = false
  | .null, _, h | .bool _, _, h | .unsigned _, _, h | .signed _, _, h | .real _, _, h | .text _, _, h
  | .bytes _, _, h | .undefined, _, h => by simp [depth] at h
  | .list _, 0, _ => rfl
  | .list items, levels + 1, h => areDefined_cutItems_of_lt items (Nat.lt_of_succ_lt_succ h)
  | .map _, 0, _ => rfl
  | .map entries, levels + 1, h => entriesDefined_cutEntries_of_lt entries (Nat.lt_of_succ_lt_succ h)

theorem areDefined_cutItems_of_lt : ∀ (items : List Datum) {levels : Nat}, levels < depthItems items →
    areDefined (cutItems levels items) = false
  | [], _, h => by simp [depthItems] at h
  | d :: rest, levels, h => by
    have h : levels < d.depth ∨ levels < depthItems rest := by
      rw [depthItems] at h
      omega
    rw [cutItems, areDefined, Bool.and_eq_false_iff]
    exact h.imp (isDefined_cut_of_lt d) (areDefined_cutItems_of_lt rest)

theorem entriesDefined_cutEntries_of_lt : ∀ (entries : List (Key × Datum)) {levels : Nat},
    levels < depthEntries entries → entriesDefined (cutEntries levels entries) = false
  | [], _, h => by simp [depthEntries] at h
  | (key, d) :: rest, levels, h => by
    have h : levels < d.depth ∨ levels < depthEntries rest := by
      rw [depthEntries] at h
      omega
    rw [cutEntries, entriesDefined, Bool.and_eq_false_iff, Bool.and_eq_false_iff]
    rcases h with h | h
    · exact .inl (.inr (isDefined_cut_of_lt d h))
    · exact .inr (entriesDefined_cutEntries_of_lt rest h)

end

mutual

theorem depth_cut_le : ∀ (levels : Nat) (d : Datum), (d.cut levels).depth ≤ levels
  | _, .null | _, .bool _ | _, .unsigned _ | _, .signed _ | _, .real _ | _, .text _ | _, .bytes _
  | _, .undefined => by rw [cut] <;> simp [depth]
  | 0, .list _ | 0, .map _ => Nat.le_refl 0
  | levels + 1, .list items => by
    rw [cut, depth]
    exact Nat.succ_le_succ (depthItems_cutItems_le levels items)
  | levels + 1, .map entries => by
    rw [cut, depth]
    exact Nat.succ_le_succ (depthEntries_cutEntries_le levels entries)

theorem depthItems_cutItems_le : ∀ (levels : Nat) (items : List Datum),
    depthItems (cutItems levels items) ≤ levels
  | _, [] => Nat.zero_le _
  | levels, d :: rest => by
    rw [cutItems, depthItems, Nat.max_le]
    exact ⟨depth_cut_le levels d, depthItems_cutItems_le levels rest⟩

theorem depthEntries_cutEntries_le : ∀ (levels : Nat) (entries : List (Key × Datum)),
    depthEntries (cutEntries levels entries) ≤ levels
  | _, [] => Nat.zero_le _
  | levels, (key, d) :: rest => by
    rw [cutEntries, depthEntries, Nat.max_le]
    exact ⟨depth_cut_le levels d, depthEntries_cutEntries_le levels rest⟩

end

mutual

/-- What has a written form of its own is defined. -/
theorem isDefined_of_isPlain : ∀ d : Datum, d.isPlain = true → d.isDefined = true
  | .null, _ | .bool _, _ | .unsigned _, _ | .signed _, _ | .text _, _ => rfl
  | .list items, h => areDefined_of_arePlain items h
  | .map entries, h => entriesDefined_of_entriesPlain entries h

theorem areDefined_of_arePlain : ∀ items : List Datum, arePlain items = true → areDefined items = true
  | [], _ => rfl
  | d :: rest, h => by
    rw [arePlain, Bool.and_eq_true] at h
    rw [areDefined, isDefined_of_isPlain d h.1, areDefined_of_arePlain rest h.2, Bool.and_self]

theorem entriesDefined_of_entriesPlain : ∀ entries : List (Key × Datum), entriesPlain entries = true →
    entriesDefined entries = true
  | [], _ => rfl
  | (.text _, d) :: rest, h => by
    rw [entriesPlain, Bool.and_eq_true, Bool.and_eq_true] at h
    rw [entriesDefined, isDefined_of_isPlain d h.1.2, entriesDefined_of_entriesPlain rest h.2]
    rfl

end

end Inventory.Datum

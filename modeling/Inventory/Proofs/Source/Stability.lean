import Inventory.Source.Series
import Mathlib.Data.List.Basic

/-! # Sorting records

`Series.newestFirst` puts records in descending order of their time stamps, and those with the same time stamp keep
their order (`Series.sorts_newestFirst`). Nothing else does (`ChunkRecord.Sorts.unique`), so records that come in
portions may be sorted after each of them (`Series.newestFirst_append`).
-/

namespace Inventory

namespace ChunkRecord

def Precedes (a b : ChunkRecord) : Prop :=
  b.timestamp ≤ a.timestamp

/-- Records are sorted in descending order of time stamps, ties being left as they are. -/
structure Sorts (records sorted : List ChunkRecord) : Prop where
  newestFirst : sorted.Pairwise Precedes
  ties : ∀ t, sorted.filter (·.timestamp == t) = records.filter (·.timestamp == t)

variable {r : ChunkRecord} {records more sorted other : List ChunkRecord}

theorem mem_of_ties (h : ∀ t, sorted.filter (·.timestamp == t) = other.filter (·.timestamp == t))
    (hr : r ∈ sorted) : r ∈ other := by
  have hmem : r ∈ sorted.filter (·.timestamp == r.timestamp) := List.mem_filter.2 ⟨hr, beq_self_eq_true _⟩
  rw [h] at hmem
  exact List.mem_of_mem_filter hmem

theorem timestamp_le_of_pairwise_cons {a b : ChunkRecord} (h : (a :: sorted).Pairwise Precedes)
    (hb : b ∈ a :: sorted) : b.timestamp ≤ a.timestamp := by
  rcases List.mem_cons.1 hb with rfl | hb
  · exact Int64.le_refl _
  · exact (List.pairwise_cons.1 h).1 b hb

theorem eq_of_ties (hsorted : sorted.Pairwise Precedes) (hother : other.Pairwise Precedes)
    (h : ∀ t, sorted.filter (·.timestamp == t) = other.filter (·.timestamp == t)) : sorted = other := by
  induction sorted generalizing other with
  | nil =>
    refine (List.eq_nil_iff_forall_not_mem.2 fun r hr => ?_).symm
    exact List.not_mem_nil (mem_of_ties (fun t => (h t).symm) hr)
  | cons a rest ih =>
    cases other with
    | nil => exact absurd (mem_of_ties h List.mem_cons_self) List.not_mem_nil
    | cons b more =>
      have htime : a.timestamp = b.timestamp := by
        apply Int64.le_antisymm
        · exact timestamp_le_of_pairwise_cons hother (mem_of_ties h List.mem_cons_self)
        · exact timestamp_le_of_pairwise_cons hsorted (mem_of_ties (fun t => (h t).symm) List.mem_cons_self)
      -- Of the records with the time stamp of the heads the heads come first.
      have hheads := h a.timestamp
      rw [List.filter_cons, List.filter_cons, if_pos (beq_self_eq_true _), if_pos (beq_iff_eq.2 htime.symm)] at hheads
      obtain ⟨rfl, -⟩ := List.cons.inj hheads
      rw [ih hsorted.of_cons hother.of_cons fun t => ?_]
      have ht := h t
      rw [List.filter_cons, List.filter_cons] at ht
      split at ht
      · exact (List.cons.inj ht).2
      · exact ht

/-- There is only one way to sort. -/
theorem Sorts.unique (h : Sorts records sorted) (hother : Sorts records other) : sorted = other :=
  eq_of_ties h.newestFirst hother.newestFirst fun t => (h.ties t).trans (hother.ties t).symm

end ChunkRecord

namespace Series

open ChunkRecord

theorem newestFirst_trans (a b c : ChunkRecord) (hab : decide (b.timestamp ≤ a.timestamp) = true)
    (hbc : decide (c.timestamp ≤ b.timestamp) = true) : decide (c.timestamp ≤ a.timestamp) = true :=
  decide_eq_true (Int64.le_trans (of_decide_eq_true hbc) (of_decide_eq_true hab))

theorem newestFirst_total (a b : ChunkRecord) :
    (decide (b.timestamp ≤ a.timestamp) || decide (a.timestamp ≤ b.timestamp)) = true := by
  rw [Bool.or_eq_true, decide_eq_true_eq, decide_eq_true_eq]
  exact Int64.le_total _ _

theorem newestFirst_perm (records : List ChunkRecord) : (newestFirst records).Perm records :=
  List.mergeSort_perm records _

theorem pairwise_newestFirst (records : List ChunkRecord) : (newestFirst records).Pairwise Precedes :=
  (List.pairwise_mergeSort newestFirst_trans newestFirst_total records).imp of_decide_eq_true

/-- Records with the same time stamp are in order already, so they keep it. -/
theorem filter_newestFirst (records : List ChunkRecord) (t : Int64) :
    (newestFirst records).filter (·.timestamp == t) = records.filter (·.timestamp == t) := by
  have htied : (records.filter (·.timestamp == t)).Pairwise
      fun a b => decide (b.timestamp ≤ a.timestamp) = true := by
    refine List.pairwise_of_forall_mem_list fun a ha b hb => decide_eq_true ?_
    rw [beq_iff_eq.1 (List.mem_filter.1 ha).2, beq_iff_eq.1 (List.mem_filter.1 hb).2]
    exact Int64.le_refl t
  have hsub := List.sublist_mergeSort newestFirst_trans newestFirst_total htied List.filter_sublist
  have hfiltered := hsub.filter (·.timestamp == t)
  simp only [List.filter_filter, Bool.and_self] at hfiltered
  exact (hfiltered.eq_of_length ((newestFirst_perm records).filter _).length_eq.symm).symm

theorem sorts_newestFirst (records : List ChunkRecord) : Sorts records (newestFirst records) :=
  ⟨pairwise_newestFirst records, filter_newestFirst records⟩

/-- Records that are sorted before others join them are sorted as all of them at once. -/
theorem newestFirst_append (records more : List ChunkRecord) :
    newestFirst (newestFirst records ++ more) = newestFirst (records ++ more) := by
  have hsorts : Sorts (records ++ more) (newestFirst (newestFirst records ++ more)) := by
    refine ⟨pairwise_newestFirst _, fun t => ?_⟩
    rw [filter_newestFirst, List.filter_append, filter_newestFirst, List.filter_append]
  exact hsorts.unique (sorts_newestFirst _)

end Series

end Inventory

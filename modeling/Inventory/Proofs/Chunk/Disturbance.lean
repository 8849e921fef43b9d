import Inventory.Proofs.Chunk.Sequence
import Mathlib.Data.List.Infix

/-! # Records that went astray

Records that follow their master other than they were written are turned away before their bytes are looked at:
there are too few of them, or the first one out of place is out of step (`reconstruct_disturbed`). Older records
behind them may make up their number, but not their time stamps.
-/

namespace Inventory.ChunkRecord

section Written

variable {size : Nat} {latest : Int64} {payload : Bytes} {master : ChunkRecord} {others : List ChunkRecord}

theorem exists_pieces (hsplit : split size latest payload = master :: others) (hothers : others ≠ []) :
    ∃ first more, first ≠ [] ∧ others = descending (latest - 1) more ∧
      master = ⟨latest, first, masterTags (others.length + 1) payload.length⟩ ∧
      others.length + 1 ≤ payload.length := by
  have hpayload : payload ≠ [] := by
    rintro rfl
    have hcuts : cuts size [] = [[]] := by
      rw [cuts, if_neg fun h => absurd h.2 (Nat.not_lt_zero size)]
    rw [split_eq latest hcuts, if_pos rfl, List.cons.injEq] at hsplit
    exact hothers hsplit.2.symm
  obtain ⟨first, more, hcuts, hfirst, hcount⟩ : ∃ first more, cuts size payload = first :: more ∧ _ :=
    exists_cuts hpayload
  have hflat := flatten_cuts size payload
  rw [hcuts] at hflat
  rw [split_eq latest hcuts] at hsplit
  split at hsplit
  · rw [List.cons.injEq] at hsplit
    exact absurd hsplit.2.symm hothers
  · rw [sequence, hflat, List.cons.injEq] at hsplit
    obtain ⟨rfl, rfl⟩ := hsplit
    rw [length_descending]
    exact ⟨first, more, hfirst, rfl, rfl, hcount⟩

theorem announces_of_split (hsplit : split size latest payload = master :: others) (hothers : others ≠ [])
    (hlength : payload.length < UInt64.size) : Announces master (others.length + 1) payload.length := by
  obtain ⟨first, more, -, -, rfl, hcount⟩ := exists_pieces hsplit hothers
  exact announces_masterTags (by omega) hlength

theorem reconstruct_of_verdict {e : Error} {rest : List ChunkRecord}
    (hsplit : split size latest payload = master :: others) (hothers : others ≠ [])
    (hverdict : Verdict master rest (.error e)) : Document.reconstruct (master :: rest) = .error e := by
  obtain ⟨first, more, hfirst, -, rfl, -⟩ := exists_pieces hsplit hothers
  rw [reconstruct_of_isMaster (isMaster_masterTags _ _ _ _) hfirst, assemble_eq_of_verdict hverdict]
  rfl

theorem timestamp_master (hsplit : split size latest payload = master :: others) (hothers : others ≠ []) :
    master.timestamp = latest := by
  obtain ⟨first, more, -, -, rfl, -⟩ := exists_pieces hsplit hothers
  rfl

theorem timestamp_others (hsplit : split size latest payload = master :: others)
    (hlow : Int64.minValue.toInt ≤ latest.toInt - others.length) {i : Nat} {r : ChunkRecord}
    (hr : others[i]? = some r) : r.timestamp.toInt = latest.toInt - (i + 1) := by
  obtain ⟨hi, -⟩ := List.getElem?_eq_some_iff.1 hr
  have hwritten : (split size latest payload)[i + 1]? = some r := by rwa [hsplit, List.getElem?_cons_succ]
  have htimestamp := timestamp_split hwritten (by omega)
  omega

end Written

/-- Records arrive behind their master that were written behind it, though not all of them or not in order, and
what follows is older than the last one of them. -/
structure Disturbed (others arrived older : List ChunkRecord) : Prop where
  written : ∀ r ∈ arrived, r ∈ others
  broken : ¬ others <+: arrived
  older : ∀ r ∈ older, ∀ last ∈ others.getLast?, r.timestamp < last.timestamp

section Arrived

variable {size : Nat} {latest : Int64} {payload : Bytes} {master : ChunkRecord}
  {others arrived older : List ChunkRecord}

theorem Disturbed.lt_of_mem_older (h : Disturbed others arrived older)
    (hsplit : split size latest payload = master :: others)
    (hlow : Int64.minValue.toInt ≤ latest.toInt - others.length) {r original : ChunkRecord} (hr : r ∈ older)
    (horiginal : original ∈ others) : r.timestamp.toInt < original.timestamp.toInt := by
  obtain ⟨i, hi, rfl⟩ := List.mem_iff_getElem.1 horiginal
  have hlast : others[others.length - 1]? = some others[others.length - 1] :=
    List.getElem?_eq_getElem (by omega)
  have hlt := Int64.lt_iff_toInt_lt.1 (h.older r hr _ (List.getLast?_eq_getElem?.trans hlast))
  have hplace := timestamp_others hsplit hlow (List.getElem?_eq_getElem hi)
  have hplaceLast := timestamp_others hsplit hlow hlast
  omega

/-- Only the record that was written there is in step at a place. -/
theorem Disturbed.eq_of_timestamp (h : Disturbed others arrived older)
    (hsplit : split size latest payload = master :: others)
    (hlow : Int64.minValue.toInt ≤ latest.toInt - others.length) {i : Nat} {original found : ChunkRecord}
    (horiginal : others[i]? = some original) (hfound : found ∈ arrived ++ older)
    (htimestamp : found.timestamp = original.timestamp) : found = original := by
  rcases List.mem_append.1 hfound with harrived | hbehind
  · obtain ⟨j, hj, rfl⟩ := List.mem_iff_getElem.1 (h.written found harrived)
    have hplace := timestamp_others hsplit hlow (List.getElem?_eq_getElem hj)
    rw [htimestamp, timestamp_others hsplit hlow horiginal] at hplace
    obtain rfl : i = j := by omega
    exact Option.some.inj ((List.getElem?_eq_getElem hj).symm.trans horiginal)
  · have hlt := h.lt_of_mem_older hsplit hlow hbehind (List.mem_of_getElem? horiginal)
    rw [htimestamp] at hlt
    exact absurd hlt (Int.lt_irrefl _)

theorem Disturbed.not_prefix (h : Disturbed others arrived older)
    (hsplit : split size latest payload = master :: others)
    (hlow : Int64.minValue.toInt ≤ latest.toInt - others.length) : ¬ others <+: arrived ++ older := by
  intro hprefix
  rcases Nat.lt_or_ge arrived.length others.length with hshort | hlong
  · -- The first of the older records would be one of those that were written.
    have hplace := List.prefix_iff_getElem?.1 hprefix arrived.length hshort
    rw [List.getElem?_append_right (Nat.le_refl _)] at hplace
    have hlt := h.lt_of_mem_older hsplit hlow (List.mem_of_getElem? hplace) (List.getElem_mem hshort)
    exact Int.lt_irrefl _ hlt
  · exact h.broken (List.prefix_of_prefix_length_le hprefix (List.prefix_append arrived older) hlong)

/-- If there are enough records, one of them is out of place. -/
theorem Disturbed.exists_first (h : Disturbed others arrived older)
    (hsplit : split size latest payload = master :: others)
    (hlow : Int64.minValue.toInt ≤ latest.toInt - others.length)
    (henough : others.length ≤ arrived.length + older.length) :
    ∃ (i : Nat) (original found : ChunkRecord), others[i]? = some original ∧
      (arrived ++ older)[i]? = some found ∧ found ≠ original ∧
      ∀ j < i, (arrived ++ older)[j]? = others[j]? := by
  have hnot : ¬ ∀ i < others.length, (arrived ++ older)[i]? = others[i]? := by
    intro hall
    apply h.not_prefix hsplit hlow
    rw [List.prefix_iff_getElem?]
    intro i hi
    rw [hall i hi, List.getElem?_eq_getElem hi]
  obtain ⟨i, hi, hbefore, hout⟩ := exists_first_not hnot
  have hlt : i < (arrived ++ older).length := by
    rw [List.length_append]
    omega
  refine ⟨i, others[i], (arrived ++ older)[i], List.getElem?_eq_getElem hi, List.getElem?_eq_getElem hlt, ?_,
    hbefore⟩
  intro heq
  apply hout
  rw [List.getElem?_eq_getElem hi, List.getElem?_eq_getElem hlt, heq]

/-- Whatever was lost, came twice or came out of order: the records are too few, or the fault names the first
place at which another record stands than was written there. -/
theorem reconstruct_disturbed (hsplit : split size latest payload = master :: others) (hothers : others ≠ [])
    (hlength : payload.length < UInt64.size)
    (hlow : Int64.minValue.toInt ≤ latest.toInt - others.length) (h : Disturbed others arrived older) :
    (arrived.length + older.length < others.length ∧
      Document.reconstruct (master :: (arrived ++ older)) =
        .error (.incompleteChunks (others.length + 1) (arrived.length + older.length + 1))) ∨
    ∃ (i : Nat) (original found : ChunkRecord), others[i]? = some original ∧
      (arrived ++ older)[i]? = some found ∧ found ≠ original ∧
      (∀ j < i, (arrived ++ older)[j]? = others[j]?) ∧
      Document.reconstruct (master :: (arrived ++ older)) =
        .error (.invalidChunkSequence (.nonContiguous (i + 1) found.timestamp original.timestamp)) := by
  have hannounces := announces_of_split hsplit hothers hlength
  rcases Nat.lt_or_ge (arrived.length + older.length) others.length with hfew | henough
  · left
    refine ⟨hfew, ?_⟩
    rw [← List.length_append] at hfew ⊢
    exact reconstruct_of_verdict hsplit hothers (.incomplete hannounces (by omega))
  · right
    obtain ⟨i, original, found, horiginal, hfound, hne, hbefore⟩ := h.exists_first hsplit hlow henough
    refine ⟨i, original, found, horiginal, hfound, hne, hbefore, ?_⟩
    obtain ⟨hi, -⟩ := List.getElem?_eq_some_iff.1 horiginal
    have hmaster := timestamp_master hsplit hothers
    have hplace := timestamp_others hsplit hlow horiginal
    have htick : ∀ j < i + 1, OnTick master (arrived ++ older) j := by
      intro j hj
      cases j with
      | zero => exact onTick_zero
      | succ j =>
        intro r hr
        rw [List.getElem?_cons_succ, hbefore j (by omega)] at hr
        rw [timestamp_others hsplit hlow hr, hmaster, Int.natCast_add, Int.natCast_one]
    have hout : ¬ OnTick master (arrived ++ older) (i + 1) := by
      intro hon
      have hstep := hon found (by rwa [List.getElem?_cons_succ])
      rw [hmaster, Int.natCast_add, Int.natCast_one, ← hplace] at hstep
      exact hne (h.eq_of_timestamp hsplit hlow horiginal (List.mem_of_getElem? hfound)
        (Int64.toInt_inj.1 hstep))
    have hexpected : original.timestamp.toInt =
        max Int64.minValue.toInt (master.timestamp.toInt - (i + 1 : Nat)) := by
      rw [hplace, hmaster]
      omega
    refine reconstruct_of_verdict hsplit hothers (.nonContiguous hannounces ?_ ?_ ?_ htick hout hexpected)
    · rw [List.length_append]
      omega
    · omega
    · rwa [List.getElem?_cons_succ]

/-- Four records of which the second one is lost and the third one comes twice, with an older snapshot that makes
up their number. -/
theorem reconstruct_disturbed_twice :
    let others := (split 1 9 [0x1F, 0x8B, 8, 0]).tail
    split 1 9 [0x1F, 0x8B, 8, 0] = ⟨9, [0x1F], masterTags 4 4⟩ :: others ∧
    Disturbed others [⟨7, [8], .empty⟩, ⟨7, [8], .empty⟩] [⟨5, [1], .empty⟩] ∧
    Document.reconstruct (⟨9, [0x1F], masterTags 4 4⟩ ::
      ([⟨7, [8], .empty⟩, ⟨7, [8], .empty⟩] ++ [⟨5, [1], .empty⟩])) =
        .error (.invalidChunkSequence (.nonContiguous 1 7 8)) := by
  intro others
  have hsplit : split 1 9 [0x1F, 0x8B, 8, 0] = ⟨9, [0x1F], masterTags 4 4⟩ :: others := by decide +kernel
  have hothers : others = [⟨8, [0x8B], .empty⟩, ⟨7, [8], .empty⟩, ⟨6, [0], .empty⟩] := by decide +kernel
  rw [hothers] at hsplit ⊢
  have hdisturbed : Disturbed [⟨8, [0x8B], .empty⟩, ⟨7, [8], .empty⟩, ⟨6, [0], .empty⟩]
      [⟨7, [8], .empty⟩, ⟨7, [8], .empty⟩] [⟨5, [1], .empty⟩] :=
    ⟨by decide, by decide, by decide⟩
  refine ⟨hsplit, hdisturbed, ?_⟩
  rcases reconstruct_disturbed hsplit (List.cons_ne_nil _ _) (by decide) (by decide) hdisturbed with
    ⟨hfew, -⟩ | ⟨i, original, found, horiginal, hfound, hne, hbefore, hfault⟩
  · exact absurd hfew (by decide)
  · cases i with
    | zero =>
      cases horiginal
      cases hfound
      exact hfault
    | succ i => exact absurd (hbefore 0 (Nat.succ_pos i)) (by decide)

end Arrived

end Inventory.ChunkRecord

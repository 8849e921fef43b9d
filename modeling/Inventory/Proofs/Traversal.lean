import Mathlib.Data.List.Forall2

/-! # Lists that are read item by item

Reading the items of a list in order either reads all of them or ends with the fault of the first item that has
one.
-/

namespace Inventory

variable {α β ε : Type} {f : α → Except ε β} {items : List α}

theorem map_eq_ok_iff {g : α → β} {x : Except ε α} {b : β} : x.map g = .ok b ↔ ∃ a, x = .ok a ∧ g a = b := by
  cases x with
  | error e => exact iff_of_false (by rintro ⟨⟩) (by rintro ⟨a, ⟨⟩, -⟩)
  | ok a =>
    constructor
    · intro h
      cases h
      exact ⟨a, rfl, rfl⟩
    · rintro ⟨_, h, rfl⟩
      cases h
      rfl

theorem map_eq_error_iff {g : α → β} {x : Except ε α} {e : ε} : x.map g = .error e ↔ x = .error e := by
  cases x <;> simp [Except.map]

theorem ok_bind (a : α) (f : α → Except ε β) : (.ok a >>= f) = f a := rfl

theorem bind_eq_ok_iff {x : Except ε α} {b : β} : (x >>= f) = .ok b ↔ ∃ a, x = .ok a ∧ f a = .ok b := by
  cases x <;> simp [bind, Except.bind]

theorem bind_eq_error_iff {x : Except ε α} {e : ε} :
    (x >>= f) = .error e ↔ x = .error e ∨ ∃ a, x = .ok a ∧ f a = .error e := by
  cases x <;> simp [bind, Except.bind]

theorem mapM_eq_ok_iff {results : List β} :
    items.mapM f = .ok results ↔ List.Forall₂ (fun a b => f a = .ok b) items results := by
  induction items generalizing results with
  | nil =>
    rw [List.mapM_nil, List.forall₂_nil_left_iff]
    constructor
    · rintro h
      cases h
      rfl
    · rintro rfl
      rfl
  | cons a rest ih =>
    rw [List.mapM_cons, List.forall₂_cons_left_iff]
    constructor
    · intro h
      cases ha : f a with
      | error e =>
        rw [ha] at h
        cases h
      | ok b =>
        cases hrest : rest.mapM f with
        | error e =>
          rw [ha, hrest] at h
          cases h
        | ok bs =>
          rw [ha, hrest] at h
          cases h
          exact ⟨b, bs, rfl, ih.1 hrest, rfl⟩
    · rintro ⟨b, bs, ha, hrest, rfl⟩
      rw [ha, ih.2 hrest]
      rfl

theorem mapM_eq_error_iff {e : ε} :
    items.mapM f = .error e ↔ ∃ before a after, items = before ++ a :: after ∧
      (∀ b ∈ before, ∃ result, f b = .ok result) ∧ f a = .error e := by
  induction items with
  | nil =>
    rw [List.mapM_nil]
    constructor
    · intro h
      cases h
    · rintro ⟨before, a, after, hsplit, -, -⟩
      exact absurd hsplit.symm (List.append_ne_nil_of_right_ne_nil before (List.cons_ne_nil a after))
  | cons a rest ih =>
    rw [List.mapM_cons]
    cases ha : f a with
    | error e' =>
      constructor
      · intro h
        cases h
        exact ⟨[], a, rest, rfl, List.forall_mem_nil _, ha⟩
      · rintro ⟨before, b, after, hsplit, hbefore, hb⟩
        cases before with
        | nil =>
          cases hsplit
          rw [ha] at hb
          cases hb
          rfl
        | cons c before =>
          cases hsplit
          obtain ⟨result, hresult⟩ := hbefore a List.mem_cons_self
          rw [ha] at hresult
          cases hresult
    | ok b =>
      have hrest : (do let bs ← rest.mapM f; pure (b :: bs)) = .error e ↔ rest.mapM f = .error e := by
        cases rest.mapM f with
        | error e' => exact Iff.rfl
        | ok bs => exact iff_of_false (by rintro ⟨⟩) (by rintro ⟨⟩)
      refine hrest.trans (ih.trans ?_)
      constructor
      · rintro ⟨before, c, after, rfl, hbefore, hc⟩
        exact ⟨a :: before, c, after, rfl, List.forall_mem_cons.2 ⟨⟨b, ha⟩, hbefore⟩, hc⟩
      · rintro ⟨before, c, after, hsplit, hbefore, hc⟩
        cases before with
        | nil =>
          cases hsplit
          rw [ha] at hc
          cases hc
        | cons d before =>
          cases hsplit
          exact ⟨before, c, after, rfl, (List.forall_mem_cons.1 hbefore).2, hc⟩

/-- Every result of reading the items of a list is read from one of them. -/
theorem exists_mem_of_mapM_eq_some {read : α → Option β} {results : List β} {b : β}
    (h : items.mapM read = some results) (hb : b ∈ results) : ∃ a ∈ items, read a = some b := by
  induction items generalizing results with
  | nil =>
    cases h
    cases hb
  | cons a rest ih =>
    rw [List.mapM_cons] at h
    obtain ⟨c, hc, h⟩ := Option.bind_eq_some_iff.1 h
    obtain ⟨more, hmore, h⟩ := Option.bind_eq_some_iff.1 h
    cases h
    rcases List.mem_cons.1 hb with rfl | hb
    · exact ⟨a, List.mem_cons_self, hc⟩
    · obtain ⟨a', ha', hread⟩ := ih hmore hb
      exact ⟨a', List.mem_cons_of_mem a ha', hread⟩

end Inventory

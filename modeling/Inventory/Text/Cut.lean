/-! # Cutting text

`cut?` cuts at the first separator only, `pieces` at every one. Both lose nothing but the separators:
`cut?_eq_some` and `pieces_ne_nil` are what callers use. `before?` and `beforeLast?` cut at a mark of several
characters and keep what stands before it.
-/

namespace Inventory.Text

def cut? (separator : Char) : List Char → Option (List Char × List Char)
  | [] => none
  | c :: rest =>
    if c = separator then some ([], rest)
    else (cut? separator rest).map fun (before, after) => (c :: before, after)

theorem cut?_eq_some {separator : Char} {cs before after : List Char}
    (h : cut? separator cs = some (before, after)) :
    cs = before ++ separator :: after ∧ separator ∉ before := by
  induction cs generalizing before with
  | nil => simp [cut?] at h
  | cons c rest ih =>
    by_cases hc : c = separator
    · simp only [cut?, hc, if_true, Option.some.injEq, Prod.mk.injEq] at h
      simp [← h.1, ← h.2, hc]
    · simp only [cut?, hc, if_false, Option.map_eq_some_iff] at h
      obtain ⟨⟨b, a⟩, hcut, heq⟩ := h
      obtain ⟨rfl, rfl⟩ := Prod.mk.inj heq
      obtain ⟨hrest, hmem⟩ := ih hcut
      simp [hrest, hmem, Ne.symm hc]

/-- The parts between separators; there is always at least one. -/
def pieces (separator : Char) : List Char → List (List Char)
  | [] => [[]]
  | c :: rest =>
    match pieces separator rest with
    | [] => []
    | part :: more => if c = separator then [] :: part :: more else (c :: part) :: more

theorem pieces_ne_nil (separator : Char) (cs : List Char) : pieces separator cs ≠ [] := by
  induction cs with
  | nil => simp [pieces]
  | cons c rest ih =>
    unfold pieces
    split
    · contradiction
    · split <;> simp

def before? (mark : List Char) : List Char → Option (List Char)
  | [] => if mark.isEmpty then some [] else none
  | c :: rest =>
    if mark.isPrefixOf (c :: rest) then some [] else (before? mark rest).map (c :: ·)

theorem exists_of_before? {mark cs before : List Char} (h : before? mark cs = some before) :
    ∃ after, cs = before ++ mark ++ after := by
  induction cs generalizing before with
  | nil =>
    simp only [before?, List.isEmpty_iff] at h
    split at h <;> simp_all
  | cons c rest ih =>
    simp only [before?, List.isPrefixOf_iff_prefix] at h
    split at h
    · next hmark =>
      obtain ⟨after, hafter⟩ := hmark
      exact ⟨after, by simp [← Option.some.inj h, hafter]⟩
    · obtain ⟨start, hstart, rfl⟩ := Option.map_eq_some_iff.1 h
      obtain ⟨after, hafter⟩ := ih hstart
      exact ⟨after, by simp [hafter]⟩

def beforeLast? (mark : List Char) : List Char → Option (List Char)
  | [] => if mark.isEmpty then some [] else none
  | c :: rest =>
    match beforeLast? mark rest with
    | some before => some (c :: before)
    | none => if mark.isPrefixOf (c :: rest) then some [] else none

theorem exists_of_beforeLast? {mark cs before : List Char} (h : beforeLast? mark cs = some before) :
    ∃ after, cs = before ++ mark ++ after := by
  induction cs generalizing before with
  | nil =>
    simp only [beforeLast?, List.isEmpty_iff] at h
    split at h <;> simp_all
  | cons c rest ih =>
    simp only [beforeLast?, List.isPrefixOf_iff_prefix] at h
    split at h
    · next start hstart =>
      obtain ⟨after, hafter⟩ := ih hstart
      exact ⟨after, by simp [← Option.some.inj h, hafter]⟩
    · split at h
      · next hmark =>
        obtain ⟨after, hafter⟩ := hmark
        exact ⟨after, by simp [← Option.some.inj h, hafter]⟩
      · simp at h

end Inventory.Text

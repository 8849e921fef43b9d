import Inventory.Proofs.Source.Conditions
import Inventory.Proofs.Traversal

/-! # Filters for given values

A filter that asks for exact values lets a series pass just if its tags have all of them
(`TagFilter.ofLiterals_holds_iff`). One that asks for a value with a given text in it looks at one line only: the text
may hold line feeds, but none may stand before or behind it (`TagFilter.withSubstring_holds_iff`).
-/

namespace Inventory

open Pattern

namespace TagFilter

variable {f g : TagFilter} {key value : String} {tags : Tags} {pairs : List (String × String)}

theorem isWithinLimits_literal (value : String) :
    (whole (spelled value.toList)).isWithinLimits = true ↔ 32 * value.length + 176 ≤ costLimit := by
  rw [isWithinLimits_spelled, String.length_toList]

def ofLiterals (pairs : List (String × String)) : Except Error TagFilter :=
  pairs.foldlM (fun f pair => f.withLiteral pair.1 pair.2) empty

theorem foldlM_withLiteral_eq_ok_iff :
    pairs.foldlM (fun f pair => f.withLiteral pair.1 pair.2) f = .ok g ↔
      (∀ pair ∈ pairs, 32 * pair.2.length + 176 ≤ costLimit) ∧
        g = ⟨f.conditions ++ pairs.map fun pair => .literal pair.1 pair.2⟩ := by
  induction pairs generalizing f with
  | nil =>
    rw [List.foldlM_nil, List.map_nil, List.append_nil, and_iff_right (List.forall_mem_nil _)]
    constructor
    · rintro ⟨⟩
      rfl
    · rintro rfl
      rfl
  | cons pair rest ih =>
    rw [List.foldlM_cons, withLiteral_eq, List.forall_mem_cons]
    by_cases hpair : 32 * pair.2.length + 176 ≤ costLimit
    · rw [if_pos ((isWithinLimits_literal pair.2).2 hpair), ok_bind, ih, and_iff_right hpair, List.append_assoc]
      rfl
    · rw [if_neg (mt (isWithinLimits_literal pair.2).1 hpair)]
      exact iff_of_false (by rintro ⟨⟩) fun h => hpair h.1.1

theorem holds_literals_iff :
    holds ⟨pairs.map fun pair => .literal pair.1 pair.2⟩ tags = true ↔
      ∀ pair ∈ pairs, tags.get? pair.1 = some pair.2 := by
  rw [holds, List.all_map, List.all_eq_true]
  exact forall₂_congr fun _ _ => TagCondition.holds_literal_iff

/-- Exact values can be asked for unless one of them is very long. Whatever marks they are made of, they are asked for
as they are. -/
theorem ofLiterals_holds_iff (pairs : List (String × String)) :
    ((∃ f, ofLiterals pairs = .ok f) ↔ ∀ pair ∈ pairs, 32 * pair.2.length + 176 ≤ costLimit) ∧
    ∀ f, ofLiterals pairs = .ok f → ∀ tags,
      f.holds tags = true ↔ ∀ pair ∈ pairs, tags.get? pair.1 = some pair.2 := by
  constructor
  · constructor
    · rintro ⟨f, hf⟩
      exact (foldlM_withLiteral_eq_ok_iff.1 hf).1
    · intro hshort
      exact ⟨_, foldlM_withLiteral_eq_ok_iff.2 ⟨hshort, rfl⟩⟩
  · intro f hf tags
    obtain ⟨-, rfl⟩ := foldlM_withLiteral_eq_ok_iff.1 hf
    exact holds_literals_iff

/-- One tag twice, and a value that would be anything if it were read as a pattern. -/
theorem ofLiterals_holds_iff_marks :
    ∃ f, ofLiterals [("feed", "a,b:c"), ("k", ".*\n"), ("feed", "a,b:c")] = .ok f ∧
      f.holds (.ofList [("feed", "a,b:c"), ("k", ".*\n"), ("more", "")]) = true ∧
      f.holds (.ofList [("feed", "a,b:c"), ("k", "x\n")]) = false ∧ f.holds (.ofList [("k", ".*\n")]) = false := by
  obtain ⟨hmade, hholds⟩ := ofLiterals_holds_iff [("feed", "a,b:c"), ("k", ".*\n"), ("feed", "a,b:c")]
  obtain ⟨f, hf⟩ := hmade.2 (by decide +kernel)
  refine ⟨f, hf, (hholds f hf _).2 (by decide +kernel), ?_, ?_⟩
  · exact Bool.eq_false_iff.2 fun h => absurd ((hholds f hf _).1 h) (by decide +kernel)
  · exact Bool.eq_false_iff.2 fun h => absurd ((hholds f hf _).1 h) (by decide +kernel)

theorem exists_withSubstring_iff :
    (∃ g, f.withSubstring key value = .ok g) ↔ 32 * value.length + 352 ≤ costLimit := by
  rw [withSubstring_eq]
  split
  · next hshort => exact iff_of_true ⟨_, rfl⟩ hshort
  · next hlong => exact iff_of_false (by rintro ⟨_, ⟨⟩⟩) hlong

theorem eq_of_withSubstring (h : f.withSubstring key value = .ok g) :
    g = ⟨f.conditions ++ [.containing key value]⟩ := by
  rw [withSubstring_eq] at h
  split at h
  · cases h
    rfl
  · cases h

theorem notMem_around {found front back cs : List Char} (hline : '\n' ∉ found) (h : found = front ++ (cs ++ back)) :
    '\n' ∉ front ∧ '\n' ∉ back := by
  rw [h, List.mem_append, List.mem_append, not_or, not_or] at hline
  exact ⟨hline.1, hline.2.2⟩

/-- A text that a value contains can be asked for unless it is very long. It is found if there is no line feed before or
behind it, so in a value on one line it is found wherever it stands. -/
theorem withSubstring_holds_iff (f : TagFilter) (key value : String) :
    ((∃ g, f.withSubstring key value = .ok g) ↔ 32 * value.length + 352 ≤ costLimit) ∧
    ∀ g, f.withSubstring key value = .ok g → ∀ tags,
      (g.holds tags = true ↔ f.holds tags = true ∧ ∃ found, tags.get? key = some found ∧
        ∃ front back, found.toList = front ++ (value.toList ++ back) ∧ '\n' ∉ front ∧ '\n' ∉ back) ∧
      ∀ found, tags.get? key = some found → '\n' ∉ found.toList →
        (g.holds tags = true ↔ f.holds tags = true ∧ value.toList <:+: found.toList) := by
  refine ⟨exists_withSubstring_iff, fun g hg tags => ?_⟩
  obtain rfl := eq_of_withSubstring hg
  rw [holds_append, Bool.and_eq_true, TagCondition.holds_containing_iff]
  refine ⟨Iff.rfl, fun found hfound hline => and_congr_right fun _ => ?_⟩
  simp only [hfound, Option.some.injEq, exists_eq_left']
  constructor
  · rintro ⟨front, back, hsplit, -, -⟩
    exact ⟨front, back, by rw [hsplit, List.append_assoc]⟩
  · rintro ⟨front, back, hsplit⟩
    rw [List.append_assoc] at hsplit
    exact ⟨front, back, hsplit.symm, notMem_around hline hsplit.symm⟩

/-- A text with a line feed of its own between two others, and one in a value without line feeds. -/
theorem withSubstring_holds_iff_lines :
    (∃ g, empty.withSubstring "k" "b\nc" = .ok g ∧ g.holds (.ofList [("k", "ab\ncd")]) = true ∧
      g.holds (.ofList [("k", "ab\nd")]) = false) ∧
    ∃ g, empty.withSubstring "k" "|b.|" = .ok g ∧ g.holds (.ofList [("k", "|a||b.||c|")]) = true := by
  obtain ⟨hmade, hholds⟩ := withSubstring_holds_iff empty "k" "b\nc"
  obtain ⟨hmade', hholds'⟩ := withSubstring_holds_iff empty "k" "|b.|"
  obtain ⟨g, hg⟩ := hmade.2 (by decide +kernel)
  obtain ⟨g', hg'⟩ := hmade'.2 (by decide +kernel)
  refine ⟨⟨g, hg, ?_, ?_⟩, g', hg', ?_⟩
  · exact (hholds g hg _).1.2
      ⟨rfl, "ab\ncd", by decide +kernel, ['a'], ['d'], by decide +kernel, by decide +kernel, by decide +kernel⟩
  · rw [Bool.eq_false_iff]
    intro h
    obtain ⟨-, found, hfound, front, back, hsplit, -, -⟩ := (hholds g hg _).1.1 h
    have hinfix : "b\nc".toList <:+: found.toList := ⟨front, back, by rw [hsplit, List.append_assoc]⟩
    obtain rfl : "ab\nd" = found := Option.some.inj hfound
    exact absurd hinfix (by decide +kernel)
  · exact ((hholds' g' hg' _).2 "|a||b.||c|" (by decide +kernel) (by decide +kernel)).2 ⟨rfl, by decide +kernel⟩

/-- The second line of a value contains a text, and the filter for this text does not find it. -/
theorem not_holds_second_line :
    "b".toList <:+: "a\nb".toList ∧
    ∃ g, empty.withSubstring "k" "b" = .ok g ∧ g.holds (.ofList [("k", "a\nb")]) = false := by
  refine ⟨by decide +kernel, _, rfl, by decide +kernel⟩

end TagFilter

end Inventory

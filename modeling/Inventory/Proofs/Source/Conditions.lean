import Inventory.Proofs.Pattern.Quoted

/-! # Conditions from given texts

A condition that is made from a value, and not from a pattern, asks for just this value or for a value that contains
it. It can be made unless the value is too long.
-/

namespace Inventory

open Pattern

namespace TagCondition

def literal (key value : String) : TagCondition :=
  ⟨key, whole (spelled value.toList)⟩

/-- The value of a tag contains a given text, with no line feed before or behind it. -/
def containing (key value : String) : TagCondition :=
  ⟨key, whole (between value.toList)⟩

variable {key value : String} {tags : Tags}

theorem holds_literal_iff : (literal key value).holds tags = true ↔ tags.get? key = some value := by
  rw [holds, literal, Option.any_eq_true]
  simp only [whole_spelled_occursIn]
  constructor
  · rintro ⟨_, hget, rfl⟩
    exact hget
  · intro hget
    exact ⟨value, hget, rfl⟩

theorem holds_containing_iff : (containing key value).holds tags = true ↔
    ∃ found, tags.get? key = some found ∧
      ∃ front back, found.toList = front ++ (value.toList ++ back) ∧ '\n' ∉ front ∧ '\n' ∉ back := by
  rw [holds, containing, Option.any_eq_true]
  simp only [whole_between_occursIn]

end TagCondition

namespace TagFilter

variable (f : TagFilter) (key value : String)

theorem holds_append (c : TagCondition) (tags : Tags) :
    holds ⟨f.conditions ++ [c]⟩ tags = (f.holds tags && c.holds tags) := by
  rw [holds, List.all_append, List.all_cons, List.all_nil, Bool.and_true]
  rfl

theorem withPattern_of_parse? {pattern : String} {p : Pattern}
    (h : parse? (anchored pattern) = (some p).filter isWithinLimits) :
    f.withPattern key pattern =
      if p.isWithinLimits then .ok ⟨f.conditions ++ [⟨key, p⟩]⟩ else .error (.invalidFilter (.badPattern key)) := by
  rw [withPattern, h, Option.filter_some]
  cases p.isWithinLimits <;> rfl

theorem withLiteral_eq :
    f.withLiteral key value =
      if (whole (spelled value.toList)).isWithinLimits then .ok ⟨f.conditions ++ [.literal key value]⟩
      else .error (.invalidFilter (.badPattern key)) :=
  withPattern_of_parse? f key (parse?_escapeText value)

theorem withSubstring_eq :
    f.withSubstring key value =
      if 32 * value.length + 352 ≤ costLimit then .ok ⟨f.conditions ++ [.containing key value]⟩
      else .error (.invalidFilter (.badPattern key)) := by
  have hlimits := isWithinLimits_between value.toList
  rw [String.length_toList] at hlimits
  rw [← if_congr hlimits rfl rfl]
  exact withPattern_of_parse? f key (parse?_between value)

end TagFilter

end Inventory

import Inventory.Proofs.Pattern.Enclosed
import Inventory.Proofs.Source.Conditions

/-! # Conditions on whole values

A condition with a pattern is for whole values: neither the front nor the back nor the inside of a value is enough
(`TagFilter.withPattern_holds_iff`). The text of the pattern is put into a group, so a text that closes this group is
taken although it is no pattern by itself (`TagFilter.holds_unmatched`), and a pattern that ends in a comment or leaves
no room for the group is refused.
-/

namespace Inventory

open Pattern

namespace TagFilter

variable {f g : TagFilter} {key s : String}

theorem withPattern_eq_ok_iff :
    f.withPattern key s = .ok g ↔ ∃ w, parse? (anchored s) = some w ∧ g = ⟨f.conditions ++ [⟨key, w⟩]⟩ := by
  rw [withPattern]
  cases parse? (anchored s) with
  | none => exact iff_of_false (by rintro ⟨⟩) (by rintro ⟨_, ⟨⟩, -⟩)
  | some w =>
    constructor
    · rintro ⟨⟩
      exact ⟨w, rfl, rfl⟩
    · rintro ⟨_, ⟨⟩, rfl⟩
      rfl

/-- A pattern can be asked for if it does not end in a comment and leaves room for one group more and for the ends of
the value. Then it is found in a value if it describes all of it. A text that is no pattern by itself can be asked for
only if it closes a group that it has not opened. -/
theorem withPattern_holds_iff (f : TagFilter) (key s : String) :
    (∀ p, parse? s = some p →
      ((∃ g, f.withPattern key s = .ok g) ↔
        Parser.Reads (Parser.groupLimit - 1) .start s.toList p ∧ parse? (s ++ ")") = none ∧
          p.height < heightLimit ∧ p.totalCost + 64 ≤ costLimit) ∧
      ∀ g, f.withPattern key s = .ok g → ∀ tags,
        g.holds tags = true ↔ f.holds tags = true ∧
          ∃ value, tags.get? key = some value ∧ p.Describes [] value.toList []) ∧
    (parse? s = none → ∀ g, f.withPattern key s = .ok g → Parser.Unmatched .start s.toList) := by
  simp only [withPattern_eq_ok_iff]
  constructor
  · intro p hp
    simp only [parse?_anchored_iff (not_unmatched_of_parse? hp), hp, Option.some.injEq]
    constructor
    · constructor
      · rintro ⟨_, _, ⟨_, rfl, hreads, hplain, hheight, hcost, -⟩, -⟩
        exact ⟨hreads, hplain, hheight, hcost⟩
      · rintro ⟨hreads, hplain, hheight, hcost⟩
        exact ⟨_, _, ⟨p, rfl, hreads, hplain, hheight, hcost, rfl⟩, rfl⟩
    · rintro _ ⟨_, ⟨_, rfl, -, -, -, -, rfl⟩, rfl⟩ tags
      rw [holds_append, Bool.and_eq_true, TagCondition.holds, Option.any_eq_true]
      simp only [whole_occursIn]
  · rintro hnone g ⟨w, hw, -⟩
    by_contra hmatched
    obtain ⟨p, hp, -⟩ := (parse?_anchored_iff hmatched).1 hw
    cases hnone.symm.trans hp

/-- One of two characters is found if it is the whole value, and a text that closes a group too early is told. -/
theorem withPattern_holds_iff_alternatives :
    (∃ g, empty.withPattern "k" "a|b" = .ok g ∧ g.holds (.ofList [("k", "b")]) = true ∧
      g.holds (.ofList [("k", "ab")]) = false) ∧
    Parser.Unmatched .start "a)|(b".toList := by
  have hreads : Parser.Reads (Parser.groupLimit - 1) .start "a|b".toList (.choice [.char 'a', .char 'b']) :=
    .item rfl rfl (by decide) (.item rfl rfl (by decide) (.item rfl rfl (by decide) (.done rfl rfl)))
  have hparse : parse? "a|b" = some (.choice [.char 'a', .char 'b']) := by
    rw [parse?_eq, hreads.read?]
    rfl
  obtain ⟨hmade, hholds⟩ := (withPattern_holds_iff empty "k" "a|b").1 _ hparse
  obtain ⟨g, hg⟩ := hmade.2 ⟨hreads, by decide +kernel, by decide, by decide⟩
  refine ⟨⟨g, hg, (hholds g hg _).2 ⟨rfl, "b", by decide +kernel, whole_occursIn.1 (by decide +kernel)⟩, ?_⟩, ?_⟩
  · rw [Bool.eq_false_iff]
    intro h
    obtain ⟨-, value, hvalue, hdescribes⟩ := (hholds g hg _).1 h
    obtain rfl : "ab" = value := Option.some.inj hvalue
    exact absurd (whole_occursIn.2 hdescribes) (by decide +kernel)
  · exact (withPattern_holds_iff empty "k" "a)|(b").2 (by decide +kernel) _ rfl

/-- A text that is no pattern by itself is taken, and with it a value of which it describes only the front. -/
theorem holds_unmatched :
    parse? "a)|(b" = none ∧ ∃ g, empty.withPattern "k" "a)|(b" = .ok g ∧ g.holds (.ofList [("k", "ax")]) = true := by
  refine ⟨by decide +kernel, _, rfl, by decide +kernel⟩

end TagFilter

end Inventory

import Inventory.Proofs.Path.Spelling

/-! # The id at the end of a path

`lastId?` looks at the text of a path and splits it anew, a canonical path has its segments. Both name the same id: that
of the last segment, however the path was built (`CanonicalPath.lastId?_eq_id`).
-/

namespace Inventory.Path

variable {path : String} {part : List Char} {segment : Segment}

/-- A part that is a segment is not empty, so it is the one that counts if it stands last. -/
theorem lastId?_of_getLast? (hlast : (splitPath path.toList).getLast? = some part)
    (hpart : Segment.ofPart? part = some segment) : lastId? path = some segment.id := by
  rw [List.getLast?_eq_head?_reverse, List.head?_eq_some_iff] at hlast
  obtain ⟨before, hlast⟩ := hlast
  unfold Segment.ofPart? at hpart
  split at hpart
  · next c code d id hcut =>
    cases hpart
    have hne : (!part.isEmpty) = true := by
      obtain ⟨rfl, -⟩ := Text.cut?_eq_some hcut
      rfl
    simp only [lastId?, hlast, List.find?_cons, hne, Option.bind_eq_bind, Option.bind_some, hcut,
      List.isEmpty_cons, Bool.false_eq_true, if_false]
  · cases hpart

theorem splitPath_slash (rest : List Char) : splitPath ('/' :: rest) = [] :: splitPath rest := by
  rw [splitPath]

end Inventory.Path

namespace Inventory.CanonicalPath

open Inventory.Path

variable {text : String} {path : CanonicalPath}

theorem exists_last_of_parse (h : parse text = .ok path) :
    ∃ segment part, path.segments.getLast? = some segment ∧
      (splitPath text.toList).getLast? = some part ∧ Segment.ofPart? part = some segment := by
  unfold parse at h
  split at h
  · next rest htext =>
    obtain ⟨segments, hread, rfl⟩ := map_eq_ok_iff.1 h
    have hparts := List.forall₂_reverse_iff.2 (readSegments_eq_ok_iff.1 hread)
    obtain ⟨part, before, hsplit⟩ := List.exists_cons_of_ne_nil (mt List.reverse_eq_nil_iff.1 (splitPath_ne_nil rest))
    rw [hsplit, List.forall₂_cons_left_iff] at hparts
    obtain ⟨segment, segmentsBefore, hpart, -, hsegments⟩ := hparts
    refine ⟨segment, part, ?_, ?_, hpart⟩
    · rw [List.getLast?_eq_head?_reverse, hsegments, List.head?_cons]
    · -- The slash in front adds an empty part, but never the last one.
      rw [htext, splitPath_slash, List.getLast?_cons, List.getLast?_eq_head?_reverse, hsplit, List.head?_cons,
        Option.getD_some]
  · cases h

theorem lastId?_of_parse (h : parse text = .ok path) :
    ∃ segment, path.segments.getLast? = some segment ∧ lastId? text = some segment.id := by
  obtain ⟨segment, part, hsegment, hlast, hpart⟩ := exists_last_of_parse h
  exact ⟨segment, hsegment, lastId?_of_getLast? hlast hpart⟩

/-- The id at the end of a text that is a path, and of the spelling of any path that was built, is the id of the last
segment of that path. -/
theorem lastId?_eq_id :
    (∀ text path, parse text = .ok path →
      ∃ segment, path.segments.getLast? = some segment ∧ lastId? text = some segment.id) ∧
    (∀ path, Built path →
      ∃ segment, path.segments.getLast? = some segment ∧ lastId? path.render = some segment.id) := by
  constructor
  · intro text path h
    exact lastId?_of_parse h
  · intro path h
    exact lastId?_of_parse h.writable.parse_render

/-- The last code escapes its semicolon, and the last id holds all the marks. -/
theorem lastId?_eq_id_marks :
    parse "/t;t1/mt\\/;a\\/b\\\\;c" = .ok ⟨[⟨"t", "t1"⟩, ⟨"mt\\/", "a/b\\;c"⟩]⟩ ∧
    Built ⟨[⟨"t", "t1"⟩, ⟨"mt\\/", "a/b\\;c"⟩, ⟨"m", "\\;/"⟩]⟩ ∧
    lastId? "/t;t1/mt\\/;a\\/b\\\\;c" = some "a/b\\;c" ∧
    lastId? (render ⟨[⟨"t", "t1"⟩, ⟨"mt\\/", "a/b\\;c"⟩, ⟨"m", "\\;/"⟩]⟩) = some "\\;/" := by
  have hparse : parse "/t;t1/mt\\/;a\\/b\\\\;c" = .ok ⟨[⟨"t", "t1"⟩, ⟨"mt\\/", "a/b\\;c"⟩]⟩ := by rfl
  have hbuilt : Built ⟨[⟨"t", "t1"⟩, ⟨"mt\\/", "a/b\\;c"⟩, ⟨"m", "\\;/"⟩]⟩ :=
    .child .metric "\\;/" (.parse hparse) (by decide)
  refine ⟨hparse, hbuilt, ?_, ?_⟩
  · obtain ⟨segment, hsegment, hlast⟩ := lastId?_eq_id.1 _ _ hparse
    cases hsegment
    exact hlast
  · obtain ⟨segment, hsegment, hlast⟩ := lastId?_eq_id.2 _ hbuilt
    cases hsegment
    exact hlast

end Inventory.CanonicalPath

import Inventory.Path.Segment
import Inventory.Snapshot.Entity
import Mathlib.Data.List.Basic

/-! # Parts of a path

A `Part` stays whole when a path is split, whatever stands around it, and a `Fragment` stays whole at the end of a
path: joined with `/`, they are split into just these texts. A written segment is a part, and it is read back from it
as long as it is `Proper`.
-/

namespace Inventory.Path

/-- A text within one segment: a backslash stands before each `/`, and none is left alone at the end. -/
inductive Part : List Char → Prop
  | nil : Part []
  | escaped (c : Char) {rest : List Char} : Part rest → Part ('\\' :: c :: rest)
  | plain {c : Char} {rest : List Char} : c ≠ '\\' → c ≠ '/' → Part rest → Part (c :: rest)

/-- What a split leaves: a `Part`, or one with a backslash alone at its end. -/
inductive Fragment : List Char → Prop
  | nil : Fragment []
  | lone : Fragment ['\\']
  | escaped (c : Char) {rest : List Char} : Fragment rest → Fragment ('\\' :: c :: rest)
  | plain {c : Char} {rest : List Char} : c ≠ '\\' → c ≠ '/' → Fragment rest → Fragment (c :: rest)

theorem part_of_plain {cs : List Char} (h : ∀ c ∈ cs, c ≠ '\\' ∧ c ≠ '/') : Part cs := by
  induction cs with
  | nil => exact .nil
  | cons c rest ih =>
    rw [List.forall_mem_cons] at h
    exact .plain h.1.1 h.1.2 (ih h.2)

theorem escapeChars_cons (c : Char) (cs : List Char) :
    escapeChars (c :: cs) = (if c = '/' ∨ c = '\\' then ['\\', c] else [c]) ++ escapeChars cs :=
  List.flatMap_cons

theorem part_escapeChars (cs : List Char) : Part (escapeChars cs) := by
  induction cs with
  | nil => exact .nil
  | cons c rest ih =>
    rw [escapeChars_cons]
    split
    · exact .escaped c ih
    · next h =>
      rw [not_or] at h
      exact .plain h.2 h.1 ih

theorem escapeChars_ne_nil {cs : List Char} (h : cs ≠ []) : escapeChars cs ≠ [] := by
  intro hnil
  apply h
  rw [← unescapeChars_escapeChars cs, hnil, unescapeChars]

theorem splitPath_plain {c : Char} {rest : List Char} (hescape : c ≠ '\\') (hslash : c ≠ '/') :
    splitPath (c :: rest) = startWith [c] (splitPath rest) :=
  splitPath.eq_3 c rest (fun _ _ h _ => hescape h) hslash

namespace Part

variable {part other : List Char}

theorem append (hpart : Part part) (hother : Part other) : Part (part ++ other) := by
  induction hpart with
  | nil => exact hother
  | escaped c _ ih => exact .escaped c ih
  | plain hescape hslash _ ih => exact .plain hescape hslash ih

theorem splitPath_append (h : Part part) (rest : List Char) :
    splitPath (part ++ '/' :: rest) = part :: splitPath rest := by
  induction h with
  | nil => rw [List.nil_append, splitPath]
  | escaped c _ ih =>
    rw [List.cons_append, List.cons_append, splitPath, ih]
    rfl
  | plain hescape hslash _ ih =>
    rw [List.cons_append, splitPath_plain hescape hslash, ih]
    rfl

theorem fragment (h : Part part) : Fragment part := by
  induction h with
  | nil => exact .nil
  | escaped c _ ih => exact .escaped c ih
  | plain hescape hslash _ ih => exact .plain hescape hslash ih

end Part

theorem Fragment.splitPath_eq {part : List Char} (h : Fragment part) : splitPath part = [part] := by
  induction h with
  | nil => rfl
  | lone => rfl
  | escaped c _ ih =>
    rw [splitPath, ih]
    rfl
  | plain hescape hslash _ ih =>
    rw [splitPath_plain hescape hslash, ih]
    rfl

theorem splitPath_intercalate {parts : List (List Char)} (hne : parts ≠ []) (h : ∀ p ∈ parts, Fragment p)
    (hinner : ∀ p ∈ parts.dropLast, Part p) : splitPath (['/'].intercalate parts) = parts := by
  induction parts with
  | nil => exact absurd rfl hne
  | cons p rest ih =>
    rw [List.forall_mem_cons] at h
    cases rest with
    | nil => rw [List.intercalate_singleton, h.1.splitPath_eq]
    | cons q rest =>
      rw [List.dropLast_cons_cons, List.forall_mem_cons] at hinner
      rw [List.intercalate_cons_cons, List.append_assoc, List.singleton_append, hinner.1.splitPath_append,
        ih (List.cons_ne_nil q rest) h.2 hinner.2]

theorem cut?_append {separator : Char} {before : List Char} (h : separator ∉ before) (after : List Char) :
    Text.cut? separator (before ++ separator :: after) = some (before, after) := by
  induction before with
  | nil => exact if_pos rfl
  | cons c rest ih =>
    rw [List.mem_cons, not_or] at h
    rw [List.cons_append, Text.cut?, if_neg (Ne.symm h.1), ih h.2]
    rfl

namespace Segment

/-- What a segment needs to be read back: a code and an id, and a code that ends at its semicolon. -/
structure Proper (segment : Segment) : Prop where
  code_ne : segment.code ≠ ""
  unmarked : ';' ∉ segment.code.toList
  part : Part (segment.code.toList ++ [';'])
  id_ne : segment.id ≠ ""

variable {segment : Segment}

theorem toList_render (segment : Segment) :
    segment.render.toList = segment.code.toList ++ ';' :: escapeChars segment.id.toList := by
  have hescape : (escape segment.id).toList = escapeChars segment.id.toList := String.toList_ofList
  rw [render, String.toList_append, String.toList_append, hescape, List.append_assoc]
  rfl

theorem render_ne_empty (segment : Segment) : segment.render ≠ "" := by
  intro h
  have hlist := segment.toList_render
  rw [h] at hlist
  exact List.append_ne_nil_of_right_ne_nil _ (List.cons_ne_nil _ _) hlist.symm

theorem Proper.part_render (h : segment.Proper) : Part segment.render.toList := by
  rw [toList_render, ← List.singleton_append, ← List.append_assoc]
  exact h.part.append (part_escapeChars _)

theorem Proper.ofPart?_render (h : segment.Proper) : ofPart? segment.render.toList = some segment := by
  have hcode : segment.code.toList ≠ [] := mt String.toList_eq_nil_iff.1 h.code_ne
  have hid : escapeChars segment.id.toList ≠ [] := escapeChars_ne_nil (mt String.toList_eq_nil_iff.1 h.id_ne)
  obtain ⟨c, code, hcode⟩ := List.exists_cons_of_ne_nil hcode
  obtain ⟨d, id, hid⟩ := List.exists_cons_of_ne_nil hid
  rw [ofPart?, toList_render, cut?_append h.unmarked, hcode, hid]
  dsimp only
  rw [← hcode, ← hid, unescapeChars_escapeChars, String.ofList_toList, String.ofList_toList]

end Segment

def relative (segments : List Segment) : String :=
  "/".intercalate (segments.map Segment.render)

variable {segments others : List Segment}

theorem relative_ne_empty (h : segments ≠ []) : relative segments ≠ "" := by
  cases segments with
  | nil => exact absurd rfl h
  | cons segment rest =>
    rw [relative, List.map_cons]
    cases rest with
    | nil =>
      rw [List.map_nil, String.intercalate_singleton]
      exact segment.render_ne_empty
    | cons next rest =>
      rw [List.map_cons, String.intercalate_cons_cons]
      intro hempty
      simp at hempty

theorem splitPath_relative_of_part (hne : segments ≠ []) (h : ∀ s ∈ segments, Part s.render.toList) :
    splitPath (relative segments).toList = segments.map fun s => s.render.toList := by
  have hparts : ∀ p ∈ segments.map fun s => s.render.toList, Part p := List.forall_mem_map.2 h
  rw [relative, String.toList_intercalate, List.map_map]
  apply splitPath_intercalate
  · exact mt List.map_eq_nil_iff.1 hne
  · exact fun p hp => (hparts p hp).fragment
  · exact fun p hp => hparts p (List.dropLast_subset _ hp)

theorem splitPath_relative (hne : segments ≠ []) (h : ∀ s ∈ segments, s.Proper) :
    splitPath (relative segments).toList = segments.map fun s => s.render.toList :=
  splitPath_relative_of_part hne fun s hs => (h s hs).part_render

theorem filterMap_ofPart?_relative (h : ∀ s ∈ segments, s.Proper) :
    (splitPath (relative segments).toList).filterMap Segment.ofPart? = segments := by
  by_cases hne : segments = []
  · subst hne
    rfl
  · have hread : ∀ s ∈ segments, (Segment.ofPart? ∘ fun s => s.render.toList) s = some s := by
      intro s hs
      exact (h s hs).ofPart?_render
    rw [splitPath_relative hne h, List.filterMap_map, List.filterMap_congr hread, List.filterMap_some]

theorem relative_injective (h : ∀ s ∈ segments, s.Proper) (hothers : ∀ s ∈ others, s.Proper)
    (heq : relative segments = relative others) : segments = others := by
  rw [← filterMap_ofPart?_relative h, heq, filterMap_ofPart?_relative hothers]

end Inventory.Path

namespace Inventory.EntityKind

theorem part_code (kind : EntityKind) : Path.Part (kind.code.toList ++ [';']) := by
  apply Path.part_of_plain
  cases kind <;> simp [code]

theorem code_ne_empty (kind : EntityKind) : kind.code ≠ "" := by
  cases kind <;> decide

theorem unmarked_code (kind : EntityKind) : ';' ∉ kind.code.toList := by
  cases kind <;> decide

theorem proper_segment (kind : EntityKind) {id : String} (h : id ≠ "") : (kind.segment id).Proper where
  code_ne := kind.code_ne_empty
  unmarked := kind.unmarked_code
  part := kind.part_code
  id_ne := h

/-- Even an empty id leaves the segment whole, though it is not read back then. -/
theorem part_render_segment (kind : EntityKind) (id : String) : Path.Part (kind.segment id).render.toList := by
  rw [Path.Segment.toList_render, ← List.singleton_append, ← List.append_assoc]
  exact kind.part_code.append (Path.part_escapeChars _)

theorem ofPart?_render_segment_empty (kind : EntityKind) :
    Path.Segment.ofPart? (kind.segment "").render.toList = none := by
  have hcut := Path.cut?_append kind.unmarked_code []
  rw [Path.Segment.ofPart?, Path.Segment.toList_render]
  split
  · next heq =>
    have hid := (Prod.mk.inj (Option.some.inj (heq.symm.trans hcut))).2
    cases hid
  · rfl

theorem segment_inj {kind other : EntityKind} {id otherId : String} :
    kind.segment id = other.segment otherId ↔ kind = other ∧ id = otherId := by
  constructor
  · intro h
    obtain ⟨hcode, hid⟩ := Path.Segment.mk.inj h
    have hkind := congrArg ofCode? hcode
    rw [ofCode?_code, ofCode?_code] at hkind
    exact ⟨Option.some.inj hkind, hid⟩
  · rintro ⟨rfl, rfl⟩
    rfl

end Inventory.EntityKind

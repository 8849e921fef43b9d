import Inventory.Proofs.Path.Spelling

/-! # Where a path is cut

Which places of a text are `Escaped` can be said by the text alone. A path is cut at each `/` that is not, and at no
other place: there is one way only to cut it so (`splitPath_eq_iff`). Nothing is lost by that but the slashes, and what
was escaped within a segment comes out as it went in (`splitPath_inverts_join`).
-/

namespace Inventory.Path

/-- A place is escaped by a backslash right before it, if that is not escaped itself. -/
def Escaped (text : List Char) : Nat → Prop
  | 0 => False
  | place + 1 => text[place]? = some '\\' ∧ ¬Escaped text place

variable {path part rest : List Char} {parts : List (List Char)} {c : Char} {place : Nat}

theorem escaped_plain (hescape : c ≠ '\\') : Escaped (c :: rest) (place + 1) ↔ Escaped rest place := by
  induction place with
  | zero =>
    constructor
    · rintro ⟨hc, -⟩
      exact absurd (Option.some.inj hc) hescape
    · exact False.elim
  | succ place ih => exact and_congr_right' (not_congr ih)

theorem escaped_pair : Escaped ('\\' :: c :: rest) (place + 2) ↔ Escaped rest place := by
  induction place with
  | zero =>
    constructor
    · rintro ⟨-, hfirst⟩
      exact absurd ⟨rfl, not_false⟩ hfirst
    · exact False.elim
  | succ place ih => exact and_congr_right' (not_congr ih)

/-- What a split leaves is a text in which every slash is escaped. -/
theorem fragment_iff : Fragment part ↔ ∀ place, part[place]? = some '/' → Escaped part place := by
  constructor
  · intro h
    induction h with
    | nil => simp
    | lone =>
      intro place hplace
      cases place <;> simp at hplace
    | escaped c _ ih =>
      intro place hplace
      match place with
      | 0 => simp at hplace
      | 1 => exact ⟨rfl, not_false⟩
      | place + 2 => exact escaped_pair.2 (ih place hplace)
    | plain hescape hslash _ ih =>
      intro place hplace
      cases place with
      | zero => exact absurd (Option.some.inj hplace) hslash
      | succ place => exact (escaped_plain hescape).2 (ih place hplace)
  · intro h
    induction part using splitPath.induct with
    | case1 c rest ih => exact .escaped c (ih fun place hplace => escaped_pair.1 (h (place + 2) hplace))
    | case2 rest ih => exact (h 0 rfl).elim
    | case3 c rest hescape hslash ih =>
      by_cases hc : c = '\\'
      · cases rest with
        | nil =>
          rw [hc]
          exact .lone
        | cons d rest => exact (hescape d rest hc rfl).elim
      · exact .plain hc hslash (ih fun place hplace => (escaped_plain hc).1 (h (place + 1) hplace))
    | case4 => exact .nil

/-- A part that can stand before a slash does not escape that slash. -/
theorem part_iff : Part part ↔ Fragment part ∧ ¬Escaped part part.length := by
  constructor
  · intro h
    refine ⟨h.fragment, ?_⟩
    induction h with
    | nil => exact not_false
    | escaped c _ ih => exact mt escaped_pair.1 ih
    | plain hescape _ _ ih => exact mt (escaped_plain hescape).1 ih
  · rintro ⟨h, hend⟩
    induction h with
    | nil => exact .nil
    | lone => exact absurd ⟨rfl, not_false⟩ hend
    | escaped c _ ih => exact .escaped c (ih (mt escaped_pair.2 hend))
    | plain hescape hslash _ ih => exact .plain hescape hslash (ih (mt (escaped_plain hescape).2 hend))

theorem intercalate_startWith (cs : List Char) (h : parts ≠ []) :
    ['/'].intercalate (startWith cs parts) = cs ++ ['/'].intercalate parts := by
  obtain ⟨part, more, rfl⟩ := List.exists_cons_of_ne_nil h
  cases more with
  | nil => rw [startWith, List.intercalate_singleton, List.intercalate_singleton]
  | cons next more =>
    rw [startWith, List.intercalate_cons_cons, List.intercalate_cons_cons, List.append_assoc, List.append_assoc,
      List.append_assoc]

theorem intercalate_splitPath (path : List Char) : ['/'].intercalate (splitPath path) = path := by
  induction path using splitPath.induct with
  | case1 c rest ih =>
    rw [splitPath, intercalate_startWith _ (splitPath_ne_nil rest), ih]
    rfl
  | case2 rest ih =>
    obtain ⟨part, more, hparts⟩ := List.exists_cons_of_ne_nil (splitPath_ne_nil rest)
    rw [splitPath, hparts, List.intercalate_cons_cons, ← hparts, ih]
    rfl
  | case3 c rest hescape hslash ih =>
    rw [splitPath.eq_3 c rest hescape hslash, intercalate_startWith _ (splitPath_ne_nil rest), ih]
    rfl
  | case4 => rfl

theorem dropLast_startWith (cs : List Char) (parts : List (List Char)) :
    (startWith cs parts).dropLast = startWith cs parts.dropLast := by
  match parts with
  | [] => rfl
  | [_] => rfl
  | _ :: _ :: _ => rfl

/-- Only the last part can end in a backslash that escapes nothing. -/
theorem part_of_mem_dropLast_splitPath (h : part ∈ (splitPath path).dropLast) : Part part := by
  induction path using splitPath.induct generalizing part with
  | case1 c rest ih =>
    rw [splitPath, dropLast_startWith] at h
    rcases mem_startWith h with h | ⟨first, hfirst, rfl⟩
    · exact ih h
    · exact .escaped c (ih hfirst)
  | case2 rest ih =>
    rw [splitPath, List.dropLast_cons_of_ne_nil (splitPath_ne_nil rest)] at h
    rcases List.mem_cons.1 h with rfl | h
    · exact .nil
    · exact ih h
  | case3 c rest hescape hslash ih =>
    rw [splitPath.eq_3 c rest hescape hslash, dropLast_startWith] at h
    rcases mem_startWith h with h | ⟨first, hfirst, rfl⟩
    · exact ih h
    · cases rest with
      | nil => cases hfirst
      | cons d rest => exact .plain (fun hc => hescape d rest hc rfl) hslash (ih hfirst)
  | case4 => cases h

/-- A path is cut into parts that give it again, hold no slash that is not escaped, and do not escape the slash behind
them; no other list of parts is like that. -/
theorem splitPath_eq_iff :
    splitPath path = parts ↔
      parts ≠ [] ∧ ['/'].intercalate parts = path ∧
        (∀ part ∈ parts, ∀ place, part[place]? = some '/' → Escaped part place) ∧
        ∀ part ∈ parts.dropLast, ¬Escaped part part.length := by
  constructor
  · rintro rfl
    refine ⟨splitPath_ne_nil path, intercalate_splitPath path, ?_, ?_⟩
    · intro part hpart
      exact fragment_iff.1 (fragment_of_mem_splitPath hpart)
    · intro part hpart
      exact (part_iff.1 (part_of_mem_dropLast_splitPath hpart)).2
  · rintro ⟨hne, rfl, hslash, hend⟩
    have hfragment : ∀ part ∈ parts, Fragment part := fun part hpart => fragment_iff.2 (hslash part hpart)
    apply splitPath_intercalate hne hfragment
    intro part hpart
    exact part_iff.2 ⟨hfragment part (List.dropLast_subset parts hpart), hend part hpart⟩

/-- The parts of a path, put together, are the path, and none of them holds a slash that is not escaped. The segments
of entities, put together, are split into just these segments, and each of them names its kind and its id. -/
theorem splitPath_inverts_join :
    (∀ path, ['/'].intercalate (splitPath path) = path) ∧
    (∀ path, ∀ part ∈ splitPath path, ∀ place, part[place]? = some '/' → Escaped part place) ∧
    (∀ entities : List (EntityKind × String), entities ≠ [] → (∀ entity ∈ entities, entity.2 ≠ "") →
      splitPath (relative (entities.map fun entity => entity.1.segment entity.2)).toList =
          entities.map (fun entity => (entity.1.segment entity.2).render.toList) ∧
        ∀ entity ∈ entities,
          Segment.ofPart? (entity.1.segment entity.2).render.toList = some ⟨entity.1.code, entity.2⟩) := by
  refine ⟨intercalate_splitPath, ?_, ?_⟩
  · intro path
    obtain ⟨-, -, hslash, -⟩ := splitPath_eq_iff.1 (Eq.refl (splitPath path))
    exact hslash
  · intro entities hne hids
    have hproper : ∀ entity ∈ entities, (entity.1.segment entity.2).Proper :=
      fun entity hentity => entity.1.proper_segment (hids entity hentity)
    constructor
    · rw [splitPath_relative (mt List.map_eq_nil_iff.1 hne) (List.forall_mem_map.2 hproper), List.map_map]
      rfl
    · intro entity hentity
      exact (hproper entity hentity).ofPart?_render

/-- A part that ends in a backslash which escapes nothing, an id that ends in a backslash, and one made of marks. -/
theorem splitPath_inverts_join_marks :
    ['/'].intercalate (splitPath "r;a\\/b/m;c\\".toList) = "r;a\\/b/m;c\\".toList ∧
    "r;a\\/b".toList ∈ splitPath "r;a\\/b/m;c\\".toList ∧
    "r;a\\/b".toList[4]? = some '/' ∧ Escaped "r;a\\/b".toList 4 ∧
    (∀ entity ∈ [(EntityKind.resource, "a/b\\"), (EntityKind.metric, "\\;/")], entity.2 ≠ "") ∧
    splitPath "r;a\\/b\\\\/m;\\\\;\\/".toList = ["r;a\\/b\\\\".toList, "m;\\\\;\\/".toList] ∧
    Segment.ofPart? "m;\\\\;\\/".toList = some ⟨"m", "\\;/"⟩ := by
  have hpart : "r;a\\/b".toList ∈ splitPath "r;a\\/b/m;c\\".toList := by decide
  have hids : ∀ entity ∈ [(EntityKind.resource, "a/b\\"), (EntityKind.metric, "\\;/")], entity.2 ≠ "" := by decide
  obtain ⟨hsplit, hread⟩ := splitPath_inverts_join.2.2 _ (List.cons_ne_nil _ _) hids
  refine ⟨splitPath_inverts_join.1 _, hpart, rfl, splitPath_inverts_join.2.1 _ _ hpart 4 rfl, hids, ?_, ?_⟩
  · have hrelative : relative [⟨"r", "a/b\\"⟩, ⟨"m", "\\;/"⟩] = "r;a\\/b\\\\/m;\\\\;\\/" := by decide +kernel
    rw [← hrelative]
    exact hsplit
  · exact hread (.metric, "\\;/") (List.mem_cons_of_mem _ List.mem_cons_self)

end Inventory.Path

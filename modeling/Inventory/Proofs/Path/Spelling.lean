import Inventory.Path.Canonical
import Inventory.Proofs.Path.Parts
import Inventory.Proofs.Traversal

/-! # How a canonical path is written

A path may have got its segments from different texts: a text that was parsed, relative paths joined to it, and
segments of its own. Codes are kept as they were written, ids are not. Still every such path is read back
from its spelling (`built_spelling`). What makes it so is that a split leaves no `/` bare and no escape open
at the semicolon (`Fragment.part_code`).
-/

namespace Inventory.Path

theorem splitPath_ne_nil (path : List Char) : splitPath path ≠ [] := by
  have hstart : ∀ (cs : List Char) {parts : List (List Char)}, parts ≠ [] → startWith cs parts ≠ [] := by
    intro cs parts hparts
    obtain ⟨part, more, rfl⟩ := List.exists_cons_of_ne_nil hparts
    exact List.cons_ne_nil _ _
  induction path using splitPath.induct with
  | case1 c rest ih =>
    rw [splitPath]
    exact hstart _ ih
  | case2 rest ih =>
    rw [splitPath]
    exact List.cons_ne_nil _ _
  | case3 c rest hescape hslash ih =>
    rw [splitPath.eq_3 c rest hescape hslash]
    exact hstart _ ih
  | case4 => exact List.cons_ne_nil _ _

theorem mem_startWith {cs part : List Char} {parts : List (List Char)} (h : part ∈ startWith cs parts) :
    part ∈ parts ∨ ∃ first ∈ parts, part = cs ++ first := by
  cases parts with
  | nil => cases h
  | cons first more =>
    rcases List.mem_cons.1 h with rfl | h
    · exact .inr ⟨first, List.mem_cons_self, rfl⟩
    · exact .inl (List.mem_cons_of_mem first h)

theorem fragment_of_mem_splitPath {path part : List Char} (h : part ∈ splitPath path) : Fragment part := by
  induction path using splitPath.induct generalizing part with
  | case1 c rest ih =>
    rw [splitPath] at h
    rcases mem_startWith h with h | ⟨first, hfirst, rfl⟩
    · exact ih h
    · exact .escaped c (ih hfirst)
  | case2 rest ih =>
    rw [splitPath] at h
    rcases List.mem_cons.1 h with rfl | h
    · exact .nil
    · exact ih h
  | case3 c rest hescape hslash ih =>
    rw [splitPath.eq_3 c rest hescape hslash] at h
    rcases mem_startWith h with h | ⟨first, hfirst, rfl⟩
    · exact ih h
    · cases rest with
      | nil =>
        obtain rfl : first = [] := List.mem_singleton.1 hfirst
        by_cases hc : c = '\\'
        · subst hc
          exact .lone
        · exact .plain hc hslash .nil
      | cons d rest => exact .plain (fun hc => hescape d rest hc rfl) hslash (ih hfirst)
  | case4 =>
    obtain rfl := List.mem_singleton.1 h
    exact .nil

/-- At the first semicolon no escape is open, be the semicolon itself escaped or not. -/
theorem Fragment.part_code {code rest : List Char} (h : Fragment (code ++ ';' :: rest)) (hcode : ';' ∉ code) :
    Part (code ++ [';']) := by
  generalize hwhole : code ++ ';' :: rest = whole at h
  induction h generalizing code with
  | nil => exact absurd hwhole (by simp)
  | lone =>
    cases code with
    | nil => cases hwhole
    | cons c code =>
      have htail := (List.cons.inj hwhole).2
      exact absurd htail (by simp)
  | escaped c _ ih =>
    match code, hwhole with
    | [], hwhole => cases hwhole
    | [_], hwhole =>
      cases hwhole
      exact .escaped ';' .nil
    | _ :: _ :: code, hwhole =>
      cases hwhole
      rw [List.mem_cons, List.mem_cons, not_or, not_or] at hcode
      exact .escaped c (ih hcode.2.2 rfl)
  | plain hescape hslash _ ih =>
    cases code with
    | nil =>
      cases hwhole
      exact .plain hescape hslash .nil
    | cons c code =>
      cases hwhole
      rw [List.mem_cons, not_or] at hcode
      exact .plain hescape hslash (ih hcode.2 rfl)

theorem unescapeChars_ne_nil {cs : List Char} (h : cs ≠ []) : unescapeChars cs ≠ [] := by
  obtain ⟨c, rest, rfl⟩ := List.exists_cons_of_ne_nil h
  rw [unescapeChars.eq_def]
  split
  · exact List.cons_ne_nil _ _
  · exact List.cons_ne_nil _ _
  · contradiction

theorem Segment.proper_of_ofPart? {part : List Char} {segment : Segment} (hpart : Fragment part)
    (h : ofPart? part = some segment) : segment.Proper := by
  unfold ofPart? at h
  split at h
  · next c code d id hcut =>
    cases h
    obtain ⟨rfl, hmark⟩ := Text.cut?_eq_some hcut
    constructor
    case code_ne => exact mt String.ofList_eq_empty_iff.1 (List.cons_ne_nil _ _)
    case unmarked => rwa [String.toList_ofList]
    case part =>
      rw [String.toList_ofList]
      exact hpart.part_code hmark
    case id_ne => exact mt String.ofList_eq_empty_iff.1 (unescapeChars_ne_nil (List.cons_ne_nil _ _))
  · cases h

theorem Segment.proper_of_forall₂ {parts : List (List Char)} {segments : List Segment}
    (h : List.Forall₂ (fun part segment => ofPart? part = some segment) parts segments)
    (hparts : ∀ part ∈ parts, Fragment part) : ∀ segment ∈ segments, segment.Proper := by
  induction h with
  | nil => exact List.forall_mem_nil _
  | cons hread _ ih =>
    rw [List.forall_mem_cons] at hparts ⊢
    exact ⟨proper_of_ofPart? hparts.1 hread, ih hparts.2⟩

end Inventory.Path

namespace Inventory.CanonicalPath

open Inventory.Path

variable {whole text relative : String} {path longer : CanonicalPath} {segments : List Segment}

theorem readSegments_eq_ok_iff {cs : List Char} :
    readSegments whole cs = .ok segments ↔
      List.Forall₂ (fun part segment => Segment.ofPart? part = some segment) (splitPath cs) segments := by
  rw [readSegments, mapM_eq_ok_iff]
  constructor
  · apply List.Forall₂.imp
    intro part segment h
    split at h
    · next hread =>
      cases h
      exact hread
    · cases h
  · apply List.Forall₂.imp
    intro part segment h
    rw [h]

/-- A path that can be written: it names something, and all its segments are read back. -/
structure Writable (path : CanonicalPath) : Prop where
  ne_nil : path.segments ≠ []
  proper : ∀ segment ∈ path.segments, segment.Proper

theorem writable_of_readSegments {cs : List Char} (h : readSegments whole cs = .ok segments) :
    Writable ⟨segments⟩ := by
  have hread := readSegments_eq_ok_iff.1 h
  constructor
  · rintro rfl
    exact splitPath_ne_nil cs (List.forall₂_nil_right_iff.1 hread)
  · exact Segment.proper_of_forall₂ hread fun _ => fragment_of_mem_splitPath

theorem Writable.readSegments_relative (h : path.Writable) (whole : String) :
    readSegments whole (Path.relative path.segments).toList = .ok path.segments := by
  rw [readSegments_eq_ok_iff, splitPath_relative h.ne_nil h.proper, List.forall₂_map_left_iff,
    List.forall₂_same]
  intro segment hsegment
  exact (h.proper segment hsegment).ofPart?_render

theorem render_eq_relative (h : path.segments ≠ []) : path.render = "/" ++ Path.relative path.segments := by
  obtain ⟨first, more, hsegments⟩ := List.exists_cons_of_ne_nil h
  rw [render, Path.relative, hsegments]
  clear hsegments
  induction more generalizing first with
  | nil =>
    rw [List.map_singleton, List.map_singleton, String.intercalate_singleton, String.join_cons, String.join_nil,
      String.append_empty]
  | cons next rest ih =>
    rw [List.map_cons, String.join_cons, ih next, List.map_cons, List.map_cons, List.map_cons,
      String.intercalate_cons_cons, String.append_assoc, String.append_assoc]

inductive Built : CanonicalPath → Prop
  | parse {text : String} {path : CanonicalPath} : parse text = .ok path → Built path
  | join {relative : String} {path longer : CanonicalPath} :
      Built path → path.join relative = .ok longer → Built longer
  | child (kind : EntityKind) (id : String) {path : CanonicalPath} :
      Built path → id ≠ "" → Built (path.child (kind.segment id))

theorem Writable.append (h : path.Writable) (hmore : Writable ⟨segments⟩) :
    Writable ⟨path.segments ++ segments⟩ where
  ne_nil := List.append_ne_nil_of_left_ne_nil h.ne_nil segments
  proper := List.forall_mem_append.2 ⟨h.proper, hmore.proper⟩

theorem writable_of_parse (h : parse text = .ok path) : path.Writable := by
  unfold parse at h
  split at h
  · obtain ⟨segments, hread, rfl⟩ := map_eq_ok_iff.1 h
    exact writable_of_readSegments hread
  · cases h

theorem Writable.join (hpath : path.Writable) (h : path.join relative = .ok longer) : longer.Writable := by
  unfold CanonicalPath.join at h
  split at h
  · cases h
    exact hpath
  · obtain ⟨more, hread, rfl⟩ := map_eq_ok_iff.1 h
    exact hpath.append (writable_of_readSegments hread)

theorem Writable.child (h : path.Writable) (kind : EntityKind) {id : String} (hid : id ≠ "") :
    (path.child (kind.segment id)).Writable := by
  apply h.append
  constructor
  · exact List.cons_ne_nil _ _
  · exact List.forall_mem_singleton.2 (kind.proper_segment hid)

theorem Built.writable (h : path.Built) : path.Writable := by
  induction h with
  | parse h => exact writable_of_parse h
  | join _ h ih => exact ih.join h
  | child kind id _ hid ih => exact ih.child kind hid

theorem toList_render (h : path.segments ≠ []) : path.render.toList = '/' :: (Path.relative path.segments).toList := by
  rw [render_eq_relative h, String.toList_append]
  rfl

theorem Writable.parse_render (h : path.Writable) : parse path.render = .ok path := by
  unfold parse
  rw [toList_render h.ne_nil]
  exact congrArg (Except.map CanonicalPath.mk) (h.readSegments_relative _)

/-- A path is read back from its spelling however it was built, so no two paths are spelled alike, and a text
that was parsed is spelled anew without a loss. -/
theorem built_spelling :
    (∀ path, Built path → parse path.render = .ok path) ∧
    (∀ path other, Built path → Built other → path.render = other.render → path = other) ∧
    (∀ text path, parse text = .ok path → parse path.render = .ok path) := by
  refine ⟨fun path h => h.writable.parse_render, ?_, fun text path h => (writable_of_parse h).parse_render⟩
  intro path other hpath hother hrender
  have hread := hpath.writable.parse_render
  rw [hrender, hother.writable.parse_render] at hread
  exact (Except.ok.inj hread).symm

/-- A code that escapes its semicolon, an id that ends in a backslash of its own, and an id made of marks. -/
theorem built_spelling_marks :
    ∃ path : CanonicalPath, path.Built ∧ path.segments = [⟨"t\\/", "a/b"⟩, ⟨"r\\", "x\\"⟩, ⟨"m", "\\;/"⟩] ∧
      path.render = "/t\\/;a\\/b/r\\;x\\\\/m;\\\\;\\/" ∧ parse path.render = .ok path := by
  have hfeed : parse "/t\\/;a\\/b" = .ok ⟨[⟨"t\\/", "a/b"⟩]⟩ := by rfl
  have hjoin : join ⟨[⟨"t\\/", "a/b"⟩]⟩ "r\\;x\\" = .ok ⟨[⟨"t\\/", "a/b"⟩, ⟨"r\\", "x\\"⟩]⟩ := by rfl
  have hbuilt := Built.child .metric "\\;/" (.join (.parse hfeed) hjoin) (by decide)
  exact ⟨_, hbuilt, rfl, by decide +kernel, built_spelling.1 _ hbuilt⟩

end Inventory.CanonicalPath

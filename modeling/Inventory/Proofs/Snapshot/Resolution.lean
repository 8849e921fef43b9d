import Inventory.Proofs.Path.Spelling
import Inventory.Snapshot.Document

/-! # What a path leads past

A relative path that leads somewhere names every entity on its way. Joined to another path it makes that path longer
by the segments of these entities (`Structure.exists_join`), whatever the spelling was. Such a path is written in
a way that is read back as itself, or not at all if one of the entities has an empty id
(`CanonicalPath.writable_descend_of_parse`).
-/

namespace Inventory

theorem EntityKind.code_of_ofCode? {code : String} {kind : EntityKind} (h : ofCode? code = some kind) :
    kind.code = code := by
  unfold ofCode? at h
  split at h <;> cases h <;> rfl

theorem EntityKind.code_ne_feed (kind : EntityKind) : kind.code ≠ "f" := by
  cases kind <;> decide

namespace CanonicalPath

open Inventory.Path

variable {feed path : CanonicalPath} {trail : List Entity}

/-- The path of the last of some entities, each of them below the one before it. -/
def descend (path : CanonicalPath) (trail : List Entity) : CanonicalPath :=
  ⟨path.segments ++ trail.map (·.segment)⟩

theorem descend_nil (path : CanonicalPath) : path.descend [] = path := by
  rw [descend, List.map_nil, List.append_nil]

theorem descend_child (path : CanonicalPath) (entity : Entity) (trail : List Entity) :
    (path.child entity.segment).descend trail = path.descend (entity :: trail) := by
  rw [descend, descend, child, List.append_assoc, List.map_cons, List.singleton_append]

theorem feedId?_descend (path : CanonicalPath) (trail : List Entity) : (path.descend trail).feedId? = path.feedId? := by
  have hnone : (trail.map (·.segment)).find? (·.code == "f") = none := by
    rw [List.find?_eq_none, List.forall_mem_map]
    intro entity _
    rw [beq_iff_eq]
    exact entity.kind.code_ne_feed
  rw [feedId?, first?, descend, List.find?_append, hnone, Option.or_none]
  rfl

theorem resourceId?_descend (path : CanonicalPath) (above : List Entity) {resource : Entity}
    (h : resource.kind = .resource) : (path.descend (above ++ [resource])).resourceId? = some resource.id := by
  have hcode : (resource.segment.code == "r") = true := by
    rw [Entity.segment, h]
    rfl
  rw [resourceId?, descend, List.map_append, List.map_singleton, ← List.append_assoc, List.reverse_concat,
    List.find?_cons, hcode]
  rfl

theorem part_of_mem_descend (h : path.Writable) : ∀ s ∈ (path.descend trail).segments, Part s.render.toList := by
  refine List.forall_mem_append.2 ⟨fun s hs => (h.proper s hs).part_render, ?_⟩
  rw [List.forall_mem_map]
  intro entity _
  exact entity.kind.part_render_segment entity.id

/-- What is read at all has no empty id in it. -/
theorem writable_descend_of_parse (hpath : path.Writable) {whole : CanonicalPath}
    (h : parse (path.descend trail).render = .ok whole) : (path.descend trail).Writable := by
  have hne : (path.descend trail).segments ≠ [] := List.append_ne_nil_of_left_ne_nil hpath.ne_nil _
  unfold parse at h
  rw [toList_render hne] at h
  obtain ⟨segments, hread, -⟩ := map_eq_ok_iff.1 h
  rw [readSegments_eq_ok_iff, splitPath_relative_of_part hne (part_of_mem_descend hpath),
    List.forall₂_map_left_iff] at hread
  have hparts : (path.descend trail).segments.map (fun s => Segment.ofPart? s.render.toList) = segments.map some := by
    rwa [← List.forall₂_eq_eq_eq, List.forall₂_map_left_iff, List.forall₂_map_right_iff]
  refine ⟨hne, List.forall_mem_append.2 ⟨hpath.proper, ?_⟩⟩
  rw [List.forall_mem_map]
  intro entity hentity
  apply entity.kind.proper_segment
  intro hid
  -- Its segment is a part by itself even so, but one without an id behind the semicolon.
  have hmem : Segment.ofPart? entity.segment.render.toList ∈ segments.map some := by
    rw [← hparts]
    exact List.mem_map_of_mem (List.mem_append_right _ (List.mem_map_of_mem hentity))
  rw [Entity.segment, hid, entity.kind.ofPart?_render_segment_empty] at hmem
  obtain ⟨segment, -, hsegment⟩ := List.mem_map.1 hmem
  cases hsegment

end CanonicalPath

namespace Structure

variable {s t c : Structure}

theorem ofPart?_of_follow? {part : List Char} (h : s.follow? part = some c) :
    Path.Segment.ofPart? part = some c.entity.segment := by
  obtain ⟨segment, hread, hrest⟩ := Option.bind_eq_some_iff.1 h
  obtain ⟨kind, hkind, hchild⟩ := Option.bind_eq_some_iff.1 hrest
  have hfound := List.find?_some hchild
  rw [Bool.and_eq_true, beq_iff_eq, beq_iff_eq] at hfound
  rw [hread, Entity.segment, hfound.1, hfound.2, EntityKind.segment, EntityKind.code_of_ofCode? hkind]

/-- Parts that lead somewhere name the entities on the way, the one that is found last. -/
theorem exists_trail_of_foldlM {parts : List (List Char)} (h : parts.foldlM follow? s = some t) :
    ∃ trail : List Entity,
      List.Forall₂ (fun part segment => Path.Segment.ofPart? part = some segment) parts (trail.map (·.segment)) ∧
      (s.entity :: trail).getLast? = some t.entity := by
  induction parts generalizing s with
  | nil =>
    cases h
    exact ⟨[], .nil, rfl⟩
  | cons part rest ih =>
    rw [List.foldlM_cons] at h
    obtain ⟨c, hfollow, hrest⟩ := Option.bind_eq_some_iff.1 h
    obtain ⟨trail, hparts, hlast⟩ := ih hrest
    exact ⟨c.entity :: trail, .cons (ofPart?_of_follow? hfollow) hparts, hlast⟩

theorem exists_join {relative : String} (h : s.resolve? relative = some t) (path : CanonicalPath) :
    ∃ trail : List Entity, path.join relative = .ok (path.descend trail) ∧
      (s.entity :: trail).getLast? = some t.entity := by
  unfold resolve? at h
  split at h
  · next hempty =>
    cases h
    refine ⟨[], ?_, rfl⟩
    rw [CanonicalPath.join, if_pos hempty, CanonicalPath.descend_nil]
  · next hempty =>
    obtain ⟨trail, hparts, hlast⟩ := exists_trail_of_foldlM h
    refine ⟨trail, ?_, hlast⟩
    rw [CanonicalPath.join, if_neg hempty, CanonicalPath.readSegments_eq_ok_iff.2 hparts]
    rfl

end Structure

theorem Document.exists_join {doc : Document} {kind : EntityKind} {relative : String} {entity : Entity}
    (h : doc.getOfKind? kind relative = some entity) (path : CanonicalPath) :
    ∃ trail : List Entity, path.join relative = .ok (path.descend trail) ∧
      (doc.root :: trail).getLast? = some entity := by
  obtain ⟨hfound, -⟩ := Option.filter_eq_some_iff.1 h
  obtain ⟨s, hs, rfl⟩ := Option.map_eq_some_iff.1 hfound
  exact Structure.exists_join hs path

theorem Document.kind_of_getOfKind? {doc : Document} {kind : EntityKind} {relative : String} {entity : Entity}
    (h : doc.getOfKind? kind relative = some entity) : entity.kind = kind :=
  eq_of_beq (Option.filter_eq_some_iff.1 h).2

end Inventory

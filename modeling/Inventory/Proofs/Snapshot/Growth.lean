import Inventory.Proofs.Snapshot.ReadBack
import Inventory.Proofs.Traversal

/-! # Reading and writing again

A snapshot may be spelled in many ways, and what is read from it is written in one: with the fields that
were left out, without those that nobody knows, each key once. Writing the fields out can make a datum
deeper, but by one level only (`Document.growsByOne`): a field that was left out is written as an empty
container where its siblings stood.
-/

namespace Inventory

namespace Datum

/-- What is read from a datum is written at most one level deeper. -/
def GrowsByOne {α : Type} (read : Datum → Option α) (write : α → Datum) : Prop :=
  ∀ ⦃d : Datum⦄ ⦃a : α⦄, read d = some a → (write a).depth ≤ d.depth + 1

theorem depth_object_le_iff {entries : List (String × Datum)} {n : Nat} :
    (object entries).depth ≤ n + 1 ↔ ∀ e ∈ entries, e.2.depth ≤ n := by
  rw [object, depth, Nat.add_le_add_iff_right, depthEntries_le_iff, List.forall_mem_map]

theorem growsByOne_text (read : Datum → Option String) : GrowsByOne read .text :=
  fun _ _ _ => Nat.zero_le _

section

variable {α : Type} {read : Datum → Option α} {write : α → Datum}

theorem GrowsByOne.list (h : GrowsByOne read write) :
    GrowsByOne (list? read) fun items => .list (items.map write) := by
  intro d items hread
  cases d with
  | list source =>
    refine Nat.succ_le_succ (depthItems_le_iff.2 (List.forall_mem_map.2 fun a ha => ?_))
    obtain ⟨d, hd, hda⟩ := exists_mem_of_mapM_eq_some hread ha
    exact (h hda).trans (Nat.succ_le_succ (depthItems_le_iff.1 (Nat.le_refl _) d hd))
  | _ => cases hread

/-- The values of a map are written in any order, and not all of them. -/
theorem GrowsByOne.of_entries? (h : GrowsByOne read write) {d : Datum} {entries kept : List (String × α)}
    (hread : d.entries? read = some entries) (hkept : ∀ e ∈ kept, e ∈ entries) :
    (object (kept.map fun e => (e.1, write e.2))).depth ≤ d.depth + 1 := by
  cases d with
  | map source =>
    refine depth_object_le_iff.2 (List.forall_mem_map.2 fun e he => ?_)
    obtain ⟨⟨key, d⟩, hd, hde⟩ := exists_mem_of_mapM_eq_some hread (hkept e he)
    obtain ⟨key, -, hde⟩ := Option.bind_eq_some_iff.1 hde
    obtain ⟨a, ha, hde⟩ := Option.bind_eq_some_iff.1 hde
    cases hde
    exact (h ha).trans (Nat.succ_le_succ (depthEntries_le_iff.1 (Nat.le_refl _) _ hd))
  | _ => cases hread

theorem GrowsByOne.sortedMap (h : GrowsByOne read write) :
    GrowsByOne (sortedMap? read) (ofSortedMap write) := by
  intro d m hread
  obtain ⟨entries, hentries, rfl⟩ := Option.map_eq_some_iff.1 hread
  exact h.of_entries? hentries fun e he => mem_sortEntries he

end

theorem mem_of_fieldsOfEntries? {names : List String} {entries : List (Key × Datum)} {fields : Fields}
    (h : fieldsOfEntries? names entries = some fields) : ∀ f ∈ fields, ∃ key, (key, f.2) ∈ entries := by
  induction entries generalizing fields with
  | nil =>
    cases h
    exact List.forall_mem_nil _
  | cons e rest ih =>
    obtain ⟨key, d⟩ := e
    rw [fieldsOfEntries?] at h
    obtain ⟨more, hmore, h⟩ := Option.bind_eq_some_iff.1 h
    obtain ⟨field, -, h⟩ := Option.bind_eq_some_iff.1 h
    have hrest : ∀ f ∈ more, ∃ k, (k, f.2) ∈ (key, d) :: rest := fun f hf =>
      (ih hmore f hf).imp fun _ hmem => List.mem_cons_of_mem _ hmem
    split at h
    · cases h
      exact hrest
    · split at h
      · cases h
      · cases h
        exact List.forall_mem_cons.2 ⟨⟨key, List.mem_cons_self⟩, hrest⟩

/-- The fields of a record stand within it. -/
theorem exists_depth_of_fields? {names : List String} {d : Datum} {fields : Fields}
    (h : d.fields? names = some fields) : ∃ n, d.depth = n + 1 ∧ ∀ f ∈ fields, f.2.depth ≤ n := by
  cases d with
  | map entries =>
    refine ⟨depthEntries entries, rfl, fun f hf => ?_⟩
    obtain ⟨key, hkey⟩ := mem_of_fieldsOfEntries? h f hf
    exact depthEntries_le_iff.1 (Nat.le_refl _) _ hkey
  | list items =>
    rw [fields?] at h
    split at h <;> cases h
    exact ⟨depthItems items, rfl, fun f hf =>
      depthItems_le_iff.1 (Nat.le_refl _) _ (List.of_mem_zip hf).2⟩
  | _ => cases h

end Datum

namespace Fields

variable {α : Type} {read : Datum → Option α} {write : α → Datum} {fields : Fields} {name : String} {a : α}
  {n : Nat}

theorem mem_of_lookup {d : Datum} (h : fields.lookup name = some d) : (name, d) ∈ fields := by
  obtain ⟨before, after, rfl, -⟩ := List.lookup_eq_some_iff.1 h
  simp

theorem depth_required_le (hgrow : Datum.GrowsByOne read write) (h : fields.required name read = some a)
    (hfields : ∀ f ∈ fields, f.2.depth ≤ n) : (write a).depth ≤ n + 1 := by
  obtain ⟨d, hlookup, hread⟩ := Option.bind_eq_some_iff.1 h
  exact (hgrow hread).trans (Nat.succ_le_succ (hfields _ (mem_of_lookup hlookup)))

/-- What stands for a missing field has no part that a container holds. -/
theorem depth_defaulted_le {missing : α} (hgrow : Datum.GrowsByOne read write)
    (h : fields.defaulted name read missing = some a) (hmissing : (write missing).depth ≤ 1)
    (hfields : ∀ f ∈ fields, f.2.depth ≤ n) : (write a).depth ≤ n + 1 := by
  unfold defaulted at h
  split at h
  · cases h
    exact hmissing.trans (Nat.succ_le_succ (Nat.zero_le n))
  · next d hlookup => exact (hgrow h).trans (Nat.succ_le_succ (hfields _ (mem_of_lookup hlookup)))

end Fields

namespace Value

mutual

theorem depth_le_of_ofDatum? : ∀ (d : Datum) {v : Value}, ofDatum? d = some v → v.toDatum.depth ≤ d.depth + 1
  | .null | .bool _ | .text _ => fun h => by
    cases h
    exact Nat.zero_le _
  | .unsigned _ | .signed _ => fun h => by
    rw [ofDatum?] at h
    obtain ⟨-, h⟩ := Option.ite_none_right_eq_some.1 h
    cases h
    rw [toDatum, Datum.integer]
    split <;> exact Nat.zero_le _
  | .real _ => fun h => by
    cases h
    split <;> exact Nat.zero_le _
  | .bytes _ | .undefined => fun h => nomatch h
  | .list items => fun h => by
    obtain ⟨vs, hvs, rfl⟩ := Option.map_eq_some_iff.1 h
    exact Nat.succ_le_succ (depthItems_le_of_ofItems? items hvs)
  | .map entries => fun h => by
    rw [ofDatum?] at h
    split at h
    · cases h
    · obtain ⟨es, hes, rfl⟩ := Option.map_eq_some_iff.1 h
      rw [toDatum, toEntries_eq_map, Datum.depth_object_le_iff, List.forall_mem_map]
      exact fun e he => depth_le_of_ofEntries? entries hes e (mem_sortEntries he)

theorem depthItems_le_of_ofItems? : ∀ (items : List Datum) {vs : List Value}, ofItems? items = some vs →
    Datum.depthItems (toItems vs) ≤ Datum.depthItems items + 1
  | [] => fun h => by
    cases h
    exact Nat.zero_le _
  | d :: rest => fun h => by
    obtain ⟨v, hv, h⟩ := Option.bind_eq_some_iff.1 h
    obtain ⟨vs, hvs, rfl⟩ := Option.map_eq_some_iff.1 h
    have hhead := depth_le_of_ofDatum? d hv
    have hrest := depthItems_le_of_ofItems? rest hvs
    rw [toItems, Datum.depthItems, Datum.depthItems]
    omega

theorem depth_le_of_ofEntries? : ∀ (entries : List (Key × Datum)) {es : List (String × Value)},
    ofEntries? entries = some es → ∀ e ∈ es, e.2.toDatum.depth ≤ Datum.depthEntries entries + 1
  | [] => fun h => by
    cases h
    exact List.forall_mem_nil _
  | (key, d) :: rest => fun h => by
    obtain ⟨k, -, h⟩ := Option.bind_eq_some_iff.1 h
    obtain ⟨v, hv, h⟩ := Option.bind_eq_some_iff.1 h
    obtain ⟨es, hes, rfl⟩ := Option.map_eq_some_iff.1 h
    rw [Datum.depthEntries, List.forall_mem_cons]
    refine ⟨(depth_le_of_ofDatum? d hv).trans (Nat.succ_le_succ (Nat.le_max_left _ _)), fun e he => ?_⟩
    exact (depth_le_of_ofEntries? rest hes e he).trans (Nat.succ_le_succ (Nat.le_max_right _ _))

end

theorem growsByOne : Datum.GrowsByOne ofDatum? toDatum :=
  fun d _ h => depth_le_of_ofDatum? d h

end Value

open Datum

theorem Properties.growsByOne : GrowsByOne properties? toDatum := by
  intro d p h
  unfold properties? at h
  split at h
  · cases h
  · next entries hentries =>
    cases h
    rw [toDatum, Value.toEntries_eq_map]
    exact Value.growsByOne.of_entries? hentries fun e he => mem_sortEntries he

namespace Operation

theorem growsByOne : GrowsByOne ofDatum? toDatum := by
  intro d o h
  obtain ⟨fields, hfields, h⟩ := Option.bind_eq_some_iff.1 h
  obtain ⟨name, -, h⟩ := Option.bind_eq_some_iff.1 h
  obtain ⟨parameters, hparameters, h⟩ := Option.bind_eq_some_iff.1 h
  cases h
  obtain ⟨n, hn, hwithin⟩ := exists_depth_of_fields? hfields
  have hdepth := Fields.depth_defaulted_le Properties.growsByOne hparameters (Nat.le_refl 1) hwithin
  rw [hn, toDatum, depth_object_le_iff]
  exact List.forall_mem_cons.2 ⟨Nat.zero_le _, List.forall_mem_singleton.2 hdepth⟩

end Operation

namespace Entity

/-- What is written for an entity is at most two levels deeper than the deepest of the fields that it was
read from. -/
theorem depth_toDatum_le_of_ofFields? {kind : EntityKind} {fields : Fields} {e : Entity} {n : Nat}
    (h : ofFields? kind fields = some e) (hfields : ∀ f ∈ fields, f.2.depth ≤ n) :
    e.toDatum.depth ≤ n + 2 := by
  rw [toDatum_eq_object, depth_object_le_iff, List.forall_mem_cons]
  refine ⟨Nat.zero_le _, ?_⟩
  obtain ⟨id, -, h⟩ := Option.bind_eq_some_iff.1 h
  obtain ⟨name, -, h⟩ := Option.bind_eq_some_iff.1 h
  obtain ⟨properties, hread, h⟩ := Option.bind_eq_some_iff.1 h
  have hproperties := Fields.depth_defaulted_le Properties.growsByOne hread (Nat.le_refl 1) hfields
  have hscalar : ∀ s, (Datum.text s).depth ≤ n + 1 := fun s => Nat.zero_le _
  cases kind with
  | resourceType =>
    obtain ⟨operations, hread, h⟩ := Option.bind_eq_some_iff.1 h
    cases h
    have hoperations := Fields.depth_defaulted_le Operation.growsByOne.list hread (Nat.le_refl 1) hfields
    simp [ownFields, hscalar, hproperties, hoperations]
  | metricType =>
    obtain ⟨dataKind, -, h⟩ := Option.bind_eq_some_iff.1 h
    obtain ⟨unit, -, h⟩ := Option.bind_eq_some_iff.1 h
    obtain ⟨interval, -, h⟩ := Option.bind_eq_some_iff.1 h
    cases h
    have hinterval : (natural interval.toNat).depth ≤ n + 1 := Nat.zero_le _
    simp [ownFields, hscalar, hproperties, hinterval]
  | resource =>
    obtain ⟨path, -, h⟩ := Option.bind_eq_some_iff.1 h
    cases h
    cases path <;> simp [ownFields, hscalar, hproperties]
  | metric =>
    obtain ⟨path, -, h⟩ := Option.bind_eq_some_iff.1 h
    cases h
    simp [ownFields, hscalar, hproperties]

theorem mem_of_takeKind? {entries rest : List (Key × Datum)} {kind : EntityKind}
    (h : takeKind? entries = some (kind, rest)) : ∀ e ∈ rest, e ∈ entries := by
  intro e he
  unfold takeKind? at h
  split at h
  · next d rest' hpartition =>
    obtain ⟨kind', -, h⟩ := Option.map_eq_some_iff.1 h
    cases h
    rw [List.partition_eq_filter_filter, Prod.mk.injEq] at hpartition
    rw [← hpartition.2] at he
    exact (List.mem_filter.1 he).1
  · cases h

theorem growsByOne : GrowsByOne ofDatum? toDatum := by
  intro d e h
  unfold ofDatum? at h
  split at h
  · cases h
  split at h
  · next entries hdefined =>
    obtain ⟨⟨kind, rest⟩, htake, h⟩ := Option.bind_eq_some_iff.1 h
    obtain ⟨fields, hfields, h⟩ := Option.bind_eq_some_iff.1 h
    obtain ⟨n, hn, hwithin⟩ := exists_depth_of_fields? hfields
    have hrest : depthEntries rest ≤ depthEntries entries :=
      depthEntries_le_iff.2 fun e he => depthEntries_le_iff.1 (Nat.le_refl _) e (mem_of_takeKind? htake e he)
    refine (depth_toDatum_le_of_ofFields? h hwithin).trans ?_
    rw [depth] at hn ⊢
    omega
  · next tag items hdefined =>
    obtain ⟨kind, -, h⟩ := Option.bind_eq_some_iff.1 h
    obtain ⟨fields, hfields, h⟩ := Option.bind_eq_some_iff.1 h
    obtain ⟨n, hn, hwithin⟩ := exists_depth_of_fields? hfields
    refine (depth_toDatum_le_of_ofFields? h hwithin).trans ?_
    rw [depth] at hn ⊢
    rw [depthItems]
    omega
  · cases h

end Entity

namespace Structure

theorem depth_toDatum_node_le {entity : Entity} {children : List Structure} {n : Nat}
    (hentity : entity.toDatum.depth ≤ n) (hchildren : (Datum.list (toItems children)).depth ≤ n) :
    (toDatum (.node entity children)).depth ≤ n + 1 := by
  rw [toDatum_node, depth_object_le_iff, List.forall_mem_cons]
  refine ⟨hentity, ?_⟩
  split
  · exact List.forall_mem_nil _
  · exact List.forall_mem_singleton.2 hchildren

mutual

theorem depth_le_of_ofDatum? : ∀ (d : Datum) {s : Structure}, ofDatum? d = some s →
    s.toDatum.depth ≤ d.depth + 1
  | .map entries => fun h => by
    obtain ⟨fields, hfields, h⟩ := Option.bind_eq_some_iff.1 h
    obtain ⟨entity, hentity, h⟩ := Option.bind_eq_some_iff.1 h
    obtain ⟨children, hchildren, h⟩ := Option.bind_eq_some_iff.1 h
    cases h
    obtain ⟨n, hn, hwithin⟩ := exists_depth_of_fields? (d := .map entries) hfields
    have hentity := Fields.depth_required_le Entity.growsByOne hentity hwithin
    have hchildren := depth_le_of_childrenOf? entries hchildren
    obtain rfl : depthEntries entries = n := Nat.succ.inj hn
    exact depth_toDatum_node_le hentity hchildren
  | .list [entity] => fun h => by
    obtain ⟨e, he, rfl⟩ := Option.map_eq_some_iff.1 h
    refine depth_toDatum_node_le ((Entity.growsByOne he).trans ?_) (Nat.succ_le_succ (Nat.zero_le _))
    exact Nat.succ_le_succ (Nat.le_max_left _ _)
  | .list [entity, children] => fun h => by
    obtain ⟨e, he, h⟩ := Option.bind_eq_some_iff.1 h
    obtain ⟨cs, hcs, h⟩ := Option.bind_eq_some_iff.1 h
    cases h
    have hitems : depthItems [entity, children] = max entity.depth children.depth := by
      rw [depthItems, depthItems, depthItems, Nat.max_zero]
    have hentity := Entity.growsByOne he
    have hchildren := depth_le_of_ofList? children hcs
    rw [depth, hitems]
    exact depth_toDatum_node_le (by omega) (by omega)
  | .list [] => fun h => nomatch h
  | .list (_ :: _ :: _ :: _) => fun h => nomatch h
  | .null | .bool _ | .text _ | .unsigned _ | .signed _ | .real _ | .bytes _ | .undefined => fun h => nomatch h

theorem depth_le_of_ofList? : ∀ (d : Datum) {ss : List Structure}, ofList? d = some ss →
    (Datum.list (toItems ss)).depth ≤ d.depth + 1
  | .list items => fun h => Nat.succ_le_succ (depthItems_le_of_ofItems? items h)
  | .null | .bool _ | .text _ | .unsigned _ | .signed _ | .real _ | .bytes _ | .undefined | .map _ =>
    fun h => nomatch h

theorem depthItems_le_of_ofItems? : ∀ (items : List Datum) {ss : List Structure}, ofItems? items = some ss →
    depthItems (toItems ss) ≤ depthItems items + 1
  | [] => fun h => by
    cases h
    exact Nat.zero_le _
  | d :: rest => fun h => by
    obtain ⟨s, hs, h⟩ := Option.bind_eq_some_iff.1 h
    obtain ⟨ss, hss, rfl⟩ := Option.map_eq_some_iff.1 h
    have hhead := depth_le_of_ofDatum? d hs
    have hrest := depthItems_le_of_ofItems? rest hss
    rw [toItems, depthItems, depthItems]
    omega

theorem depth_le_of_childrenOf? : ∀ (entries : List (Key × Datum)) {ss : List Structure},
    childrenOf? entries = some ss → (Datum.list (toItems ss)).depth ≤ depthEntries entries + 1
  | [] => fun h => by
    cases h
    exact Nat.le_refl 1
  | (key, d) :: rest => fun h => by
    rw [childrenOf?] at h
    rw [depthEntries]
    split at h
    · exact (depth_le_of_ofList? d h).trans (Nat.succ_le_succ (Nat.le_max_left _ _))
    · exact (depth_le_of_childrenOf? rest h).trans (Nat.succ_le_succ (Nat.le_max_right _ _))

end

theorem growsByOne : GrowsByOne ofDatum? toDatum :=
  fun d _ h => depth_le_of_ofDatum? d h

end Structure

namespace Document

theorem indexGrowsByOne : GrowsByOne indexOfDatum? indexToDatum :=
  (growsByOne_text text?).list.sortedMap

/-- A document is written at most one level deeper than it was read. -/
theorem growsByOne : GrowsByOne ofDatum? toDatum := by
  intro d doc h
  obtain ⟨fields, hfields, h⟩ := Option.bind_eq_some_iff.1 h
  obtain ⟨tree, htree, h⟩ := Option.bind_eq_some_iff.1 h
  obtain ⟨resourceTypes, hresources, h⟩ := Option.bind_eq_some_iff.1 h
  obtain ⟨metricTypes, hmetrics, h⟩ := Option.bind_eq_some_iff.1 h
  cases h
  obtain ⟨n, hn, hwithin⟩ := exists_depth_of_fields? hfields
  have htree := Fields.depth_required_le Structure.growsByOne htree hwithin
  have hresources := Fields.depth_defaulted_le indexGrowsByOne hresources (Nat.le_refl 1) hwithin
  have hmetrics := Fields.depth_defaulted_le indexGrowsByOne hmetrics (Nat.le_refl 1) hwithin
  rw [hn, toDatum, depth_object_le_iff]
  simp [htree, hresources, hmetrics]

end Document

end Inventory

import Inventory.Proofs.Datum.Depth
import Inventory.Proofs.Datum.ReadBack
import Inventory.Proofs.Json.RoundTrip
import Inventory.Snapshot.Format

/-! # Snapshots are read back from what is written for them

Entities, structures and documents without floating-point numbers are written as plain data and read
back from them. Every part of a written document is looked at, so one that nests too deeply for the
reader is refused as a whole (`parse?_render`).
-/

namespace Inventory

open Datum

namespace Operation

def noReals (o : Operation) : Bool :=
  o.parameters.noReals

theorem ofDatum?_toDatum {o : Operation} (h : o.noReals = true) : ofDatum? o.toDatum = some o := by
  rw [ofDatum?, toDatum, fields?_object ["name", "parameters"] rfl (by decide) (by decide)]
  simp [Fields.required, Fields.defaulted, List.lookup_cons, text?, properties?_toDatum h]

theorem isPlain_toDatum {o : Operation} (h : o.noReals = true) : o.toDatum.isPlain = true := by
  simp [toDatum, isPlain_object, Properties.isPlain_toDatum h, isPlain]

end Operation

namespace Entity

def noReals : Entity → Bool
  | .resourceType _ _ operations properties => operations.all Operation.noReals && properties.noReals
  | .metricType _ _ _ _ _ properties => properties.noReals
  | .resource _ _ _ properties => properties.noReals
  | .metric _ _ _ properties => properties.noReals

def ownFields : Entity → List (String × Datum)
  | .resourceType id name operations properties =>
    [("id", .text id), ("name", .text name), ("operations", .list (operations.map Operation.toDatum)),
     ("properties", properties.toDatum)]
  | .metricType id name dataKind unit collectionInterval properties =>
    [("id", .text id), ("name", .text name), ("dataKind", .text dataKind.name), ("unit", .text unit.name),
     ("collectionInterval", .natural collectionInterval.toNat), ("properties", properties.toDatum)]
  | .resource id name none properties =>
    [("id", .text id), ("name", .text name), ("properties", properties.toDatum)]
  | .resource id name (some path) properties =>
    [("id", .text id), ("name", .text name), ("resourceTypePath", .text path),
     ("properties", properties.toDatum)]
  | .metric id name path properties =>
    [("id", .text id), ("name", .text name), ("metricTypePath", .text path),
     ("properties", properties.toDatum)]

theorem toDatum_eq_object (e : Entity) :
    e.toDatum = object (("kind", .text e.kind.tag) :: e.ownFields) := by
  cases e with
  | resource id name path properties => cases path <;> rfl
  | _ => rfl

theorem isPlain_toDatum {e : Entity} (h : e.noReals = true) : e.toDatum.isPlain = true := by
  rw [toDatum_eq_object, isPlain_object]
  cases e with
  | resourceType id name operations properties =>
    rw [noReals, Bool.and_eq_true, List.all_eq_true] at h
    have hoperations : arePlain (operations.map Operation.toDatum) = true := by
      rw [arePlain_iff]
      intro d hd
      obtain ⟨o, ho, rfl⟩ := List.mem_map.1 hd
      exact Operation.isPlain_toDatum (h.1 o ho)
    simp [ownFields, isPlain, hoperations, Properties.isPlain_toDatum h.2]
  | metricType id name dataKind unit interval properties =>
    have hproperties := Properties.isPlain_toDatum (p := properties) h
    simp [ownFields, isPlain, natural, hproperties, interval.toNat_lt_size]
  | resource id name path properties =>
    have hproperties := Properties.isPlain_toDatum (p := properties) h
    cases path <;> simp [ownFields, isPlain, hproperties]
  | metric id name path properties =>
    have hproperties := Properties.isPlain_toDatum (p := properties) h
    simp [ownFields, isPlain, hproperties]

theorem takeKind?_object (kind : EntityKind) {keys : List String} {entries : List (String × Datum)}
    (hkeys : entries.map Prod.fst = keys) (hnot : "kind" ∉ keys) :
    takeKind? ((("kind", .text kind.tag) :: entries).map fun e => (Key.text e.1, e.2)) =
      some (kind, entries.map fun e => (Key.text e.1, e.2)) := by
  subst hkeys
  have hother : ∀ e ∈ entries.map (fun e => (Key.text e.1, e.2)), (e.1 == Key.text "kind") = false := by
    intro e he
    obtain ⟨f, hf, rfl⟩ := List.mem_map.1 he
    refine beq_eq_false_iff_ne.2 fun heq => hnot ?_
    exact List.mem_map.2 ⟨f, hf, Key.text.inj heq⟩
  have hnone :
      (entries.map fun e => (Key.text e.1, e.2)).filter (fun e => e.1 == Key.text "kind") = [] := by
    refine List.filter_eq_nil_iff.2 fun e he => ?_
    rw [hother e he]
    exact Bool.false_ne_true
  have hall : (entries.map fun e => (Key.text e.1, e.2)).filter (not ∘ fun e => e.1 == Key.text "kind") =
      entries.map fun e => (Key.text e.1, e.2) := by
    refine List.filter_eq_self.2 fun e he => ?_
    rw [Function.comp, hother e he]
    rfl
  have htag : kindOf? (.text kind.tag) = some kind := by cases kind <;> rfl
  have hkind : (Key.text "kind" == Key.text "kind") = true := beq_self_eq_true _
  rw [takeKind?, List.partition_eq_filter_filter, List.map_cons, List.filter_cons, List.filter_cons,
    if_pos hkind, hnone, if_neg (by simp), hall]
  simp only [htag, Option.map_some]

theorem ofFields?_ownFields {e : Entity} (h : e.noReals = true) :
    ofFields? e.kind e.ownFields = some e := by
  cases e with
  | resourceType id name operations properties =>
    rw [noReals, Bool.and_eq_true, List.all_eq_true] at h
    have hoperations := list?_map operations fun o ho => Operation.ofDatum?_toDatum (h.1 o ho)
    simp [ofFields?, kind, ownFields, Fields.required, Fields.defaulted, List.lookup_cons, text?,
      properties?_toDatum h.2, hoperations]
  | metricType id name dataKind unit interval properties =>
    have hproperties := properties?_toDatum (p := properties) h
    have hkind : DataKind.ofDatum? true (.text dataKind.name) = some dataKind := by cases dataKind <;> rfl
    have hunit : MetricUnit.ofDatum? true (.text unit.name) = some unit := by cases unit <;> rfl
    have hinterval := uint64?_natural interval
    simp [ofFields?, kind, ownFields, Fields.required, Fields.defaulted, List.lookup_cons, text?, hproperties,
      hkind, hunit, hinterval]
  | resource id name path properties =>
    have hproperties := properties?_toDatum (p := properties) h
    cases path <;> simp [ofFields?, kind, ownFields, Fields.required, Fields.defaulted,
      List.lookup_cons, text?, textOrNull?, hproperties]
  | metric id name path properties =>
    have hproperties := properties?_toDatum (p := properties) h
    simp [ofFields?, kind, ownFields, Fields.required, Fields.defaulted, List.lookup_cons, text?, hproperties]

theorem exists_keys (e : Entity) : ∃ keys, e.ownFields.map Prod.fst = keys ∧ keys.Nodup ∧ "kind" ∉ keys ∧
    ∀ key ∈ keys, key ∈ fieldNames e.kind := by
  cases e with
  | resourceType => exact ⟨fieldNames .resourceType, rfl, by decide, by decide, fun _ h => h⟩
  | metricType => exact ⟨fieldNames .metricType, rfl, by decide, by decide, fun _ h => h⟩
  | resource id name path properties =>
    cases path with
    | none => exact ⟨["id", "name", "properties"], rfl, by decide, by decide, by simp [kind, fieldNames]⟩
    | some path => exact ⟨fieldNames .resource, rfl, by decide, by decide, fun _ h => h⟩
  | metric => exact ⟨fieldNames .metric, rfl, by decide, by decide, fun _ h => h⟩

theorem ofDatum?_map {entries : List (Key × Datum)} (h : (Datum.map entries).isDefined = true) :
    ofDatum? (.map entries) = (takeKind? entries).bind fun e =>
      ((Datum.map e.2).fields? (fieldNames e.1)).bind (ofFields? e.1) := by
  rw [ofDatum?, h]
  rfl

theorem ofDatum?_of_not_isDefined {d : Datum} (h : d.isDefined = false) : ofDatum? d = none := by
  unfold ofDatum?
  rw [h]
  rfl

theorem ofDatum?_toDatum {e : Entity} (h : e.noReals = true) : ofDatum? e.toDatum = some e := by
  have hdefined := isDefined_of_isPlain _ (isPlain_toDatum h)
  obtain ⟨keys, hkeys, hnodup, hnot, hnames⟩ := e.exists_keys
  have hfields := fields?_object keys hkeys hnodup hnames
  rw [toDatum_eq_object, object] at hdefined ⊢
  rw [object] at hfields
  rw [ofDatum?_map hdefined, takeKind?_object e.kind hkeys hnot, Option.bind_some, hfields,
    Option.bind_some, ofFields?_ownFields h]

end Entity

namespace Structure

mutual

def noReals : Structure → Bool
  | .node entity children => entity.noReals && allNoReals children

def allNoReals : List Structure → Bool
  | [] => true
  | s :: rest => noReals s && allNoReals rest

end

theorem toDatum_node (entity : Entity) (children : List Structure) :
    toDatum (.node entity children) = object (("entity", entity.toDatum) ::
      if children.isEmpty then [] else [("children", .list (toItems children))]) := by
  cases children <;> simp [toDatum, toItems]

mutual

theorem isPlain_toDatum : ∀ s : Structure, s.noReals = true → s.toDatum.isPlain = true
  | .node entity children, h => by
    rw [noReals, Bool.and_eq_true] at h
    have hchildren : (Datum.list (toItems children)).isPlain = true := arePlain_toItems children h.2
    rw [toDatum_node, isPlain_object]
    cases children <;> simp [Entity.isPlain_toDatum h.1, hchildren]

theorem arePlain_toItems : ∀ ss : List Structure, allNoReals ss = true → arePlain (toItems ss) = true
  | [], _ => rfl
  | s :: rest, h => by
    rw [allNoReals, Bool.and_eq_true] at h
    rw [toItems, arePlain, isPlain_toDatum s h.1, arePlain_toItems rest h.2, Bool.and_self]

end

theorem ofDatum?_leaf (d : Datum) :
    ofDatum? (object [("entity", d)]) = (Entity.ofDatum? d).map (.node · []) := by
  have hfields : fieldsOfEntries? fieldNames [(Key.text "entity", d)] = some [("entity", d)] := rfl
  have hentity : Fields.required [("entity", d)] "entity" Entity.ofDatum? = Entity.ofDatum? d := rfl
  have hchildren : childrenOf? [(Key.text "entity", d)] = some [] := rfl
  rw [object, List.map_cons, List.map_nil, ofDatum?, hfields, hchildren]
  simp only [Option.bind_eq_bind, Option.bind_some, hentity]
  cases Entity.ofDatum? d <;> rfl

theorem ofDatum?_branch (d children : Datum) :
    ofDatum? (object [("entity", d), ("children", children)]) =
      (Entity.ofDatum? d).bind fun entity => (ofList? children).map (.node entity) := by
  have hfields : fieldsOfEntries? fieldNames [(Key.text "entity", d), (Key.text "children", children)] =
      some [("entity", d), ("children", children)] := rfl
  have hentity : Fields.required [("entity", d), ("children", children)] "entity" Entity.ofDatum? =
      Entity.ofDatum? d := rfl
  have hchildren : childrenOf? [(Key.text "entity", d), (Key.text "children", children)] =
      ofList? children := by
    rw [childrenOf?, if_neg (by decide), childrenOf?, if_pos (by decide)]
  rw [object, List.map_cons, List.map_cons, List.map_nil, ofDatum?, hfields, hchildren]
  simp only [Option.bind_eq_bind, Option.bind_some, hentity]
  cases Entity.ofDatum? d with
  | none => rfl
  | some entity => cases ofList? children <;> rfl

mutual

theorem ofDatum?_toDatum : ∀ s : Structure, s.noReals = true → ofDatum? s.toDatum = some s
  | .node entity [], h => by
    rw [noReals, Bool.and_eq_true] at h
    rw [toDatum, ofDatum?_leaf, Entity.ofDatum?_toDatum h.1, Option.map_some]
  | .node entity (c :: cs), h => by
    rw [noReals, Bool.and_eq_true] at h
    rw [toDatum, ofDatum?_branch, Entity.ofDatum?_toDatum h.1, Option.bind_some, ← toItems, ofList?,
      ofItems?_toItems (c :: cs) h.2, Option.map_some]

theorem ofItems?_toItems : ∀ ss : List Structure, allNoReals ss = true → ofItems? (toItems ss) = some ss
  | [], _ => rfl
  | s :: rest, h => by
    rw [allNoReals, Bool.and_eq_true] at h
    rw [toItems, ofItems?, ofDatum?_toDatum s h.1, Option.bind_some, ofItems?_toItems rest h.2,
      Option.map_some]

end

mutual

/-- A structure of which a limit of nesting cuts something off is not read: the cut is in an entity,
which is read as a whole, or makes a list of children undefined. -/
theorem ofDatum?_cut_of_lt : ∀ (s : Structure) {levels : Nat}, levels < s.toDatum.depth →
    ofDatum? (s.toDatum.cut levels) = none
  | .node _ [], 0, _ | .node _ (_ :: _), 0, _ => by
    rw [toDatum, object, cut, ofDatum?] <;> simp
  | .node entity [], levels + 1, h => by
    have hentity : levels < entity.toDatum.depth := by
      simpa [toDatum, object, depth, depthEntries] using h
    have hcut : (object [("entity", entity.toDatum)]).cut (levels + 1) =
        object [("entity", entity.toDatum.cut levels)] := rfl
    rw [toDatum, hcut, ofDatum?_leaf, Entity.ofDatum?_of_not_isDefined (isDefined_cut_of_lt _ hentity),
      Option.map_none]
  | .node entity (c :: cs), levels + 1, h => by
    have hparts : levels < entity.toDatum.depth ∨ levels ≤ depthItems (toItems (c :: cs)) := by
      simp only [toDatum, object, depth, depthEntries, List.map_cons, List.map_nil] at h
      rw [toItems]
      omega
    have hcut : (toDatum (.node entity (c :: cs))).cut (levels + 1) =
        object [("entity", entity.toDatum.cut levels),
          ("children", (Datum.list (toItems (c :: cs))).cut levels)] := rfl
    rw [hcut, ofDatum?_branch]
    rcases hparts with hentity | hitems
    · rw [Entity.ofDatum?_of_not_isDefined (isDefined_cut_of_lt _ hentity), Option.bind_none]
    · have hchildren : ofList? ((Datum.list (toItems (c :: cs))).cut levels) = none := by
        cases levels with
        | zero => rfl
        | succ levels => rw [cut, ofList?, ofItems?_cutItems_of_lt (c :: cs) hitems]
      rw [hchildren]
      cases Entity.ofDatum? (entity.toDatum.cut levels) <;> rfl

theorem ofItems?_cutItems_of_lt : ∀ (ss : List Structure) {levels : Nat},
    levels < depthItems (toItems ss) → ofItems? (cutItems levels (toItems ss)) = none
  | [], _, h => by simp [toItems, depthItems] at h
  | s :: rest, levels, h => by
    have hparts : levels < s.toDatum.depth ∨ levels < depthItems (toItems rest) := by
      rw [toItems, depthItems] at h
      omega
    rw [toItems, cutItems, ofItems?]
    rcases hparts with hs | hrest
    · rw [ofDatum?_cut_of_lt s hs, Option.bind_none]
    · rw [ofItems?_cutItems_of_lt rest hrest]
      cases ofDatum? (s.toDatum.cut levels) <;> rfl

end

end Structure

namespace Document

def noReals (doc : Document) : Bool :=
  doc.tree.noReals

theorem isPlain_indexToDatum (index : TypeIndex) : (indexToDatum index).isPlain = true := by
  rw [indexToDatum, ofSortedMap, isPlain_object]
  intro e he
  obtain ⟨f, -, rfl⟩ := List.mem_map.1 he
  exact isPlain_texts f.2

theorem isPlain_toDatum {doc : Document} (h : doc.noReals = true) : doc.toDatum.isPlain = true := by
  rw [toDatum, isPlain_object]
  simp [Structure.isPlain_toDatum doc.tree h, isPlain_indexToDatum]

theorem indexOfDatum?_indexToDatum (index : TypeIndex) :
    indexOfDatum? (indexToDatum index) = some index :=
  sortedMap?_ofSortedMap index fun items _ => list?_texts items

theorem depthItems_map_text (items : List String) : depthItems (items.map .text) = 0 := by
  induction items with
  | nil => rfl
  | cons s rest ih => rw [List.map_cons, depthItems, ih, depth, Nat.max_self] <;> simp

/-- An index is a map of lists of texts. -/
theorem depth_indexToDatum_le (index : TypeIndex) : (indexToDatum index).depth ≤ 2 := by
  rw [indexToDatum, ofSortedMap, object, depth]
  refine Nat.succ_le_succ ?_
  induction index.entries with
  | nil => exact Nat.zero_le _
  | cons e rest ih =>
    rw [List.map_cons, List.map_cons, depthEntries, texts, depth, depthItems_map_text]
    exact Nat.max_le.2 ⟨Nat.le_refl 1, ih⟩

theorem ofDatum?_object (d resourceTypes metricTypes : Datum) :
    ofDatum? (.object [("structure", d), ("resourceTypesIndex", resourceTypes),
      ("metricTypesIndex", metricTypes)]) =
    (Structure.ofDatum? d).bind fun tree => (indexOfDatum? resourceTypes).bind fun resourceTypes =>
      (indexOfDatum? metricTypes).map fun metricTypes => ⟨tree, resourceTypes, metricTypes⟩ := by
  have hfields : fields? fieldNames (.object [("structure", d), ("resourceTypesIndex", resourceTypes),
      ("metricTypesIndex", metricTypes)]) = _ := fields?_object fieldNames rfl (by decide) fun _ h => h
  have htree : Fields.required [("structure", d), ("resourceTypesIndex", resourceTypes),
      ("metricTypesIndex", metricTypes)] "structure" Structure.ofDatum? = Structure.ofDatum? d := rfl
  have hresources : Fields.defaulted [("structure", d), ("resourceTypesIndex", resourceTypes),
      ("metricTypesIndex", metricTypes)] "resourceTypesIndex" indexOfDatum? .empty =
      indexOfDatum? resourceTypes := rfl
  have hmetrics : Fields.defaulted [("structure", d), ("resourceTypesIndex", resourceTypes),
      ("metricTypesIndex", metricTypes)] "metricTypesIndex" indexOfDatum? .empty =
      indexOfDatum? metricTypes := rfl
  rw [ofDatum?, hfields, Option.bind_eq_bind, Option.bind_some, htree, hresources, hmetrics]
  cases Structure.ofDatum? d with
  | none => rfl
  | some tree =>
    cases indexOfDatum? resourceTypes with
    | none => rfl
    | some resourceTypes => cases indexOfDatum? metricTypes <;> rfl

theorem ofDatum?_toDatum {doc : Document} (h : doc.noReals = true) : ofDatum? doc.toDatum = some doc := by
  rw [toDatum, ofDatum?_object, Structure.ofDatum?_toDatum doc.tree h, indexOfDatum?_indexToDatum,
    indexOfDatum?_indexToDatum]
  rfl

/-- A document that nests too deeply is not read, since its structure is what nests too deeply. -/
theorem ofDatum?_cut_of_lt {doc : Document} {levels : Nat} (hlevels : 2 ≤ levels)
    (h : levels + 1 < doc.toDatum.depth) : ofDatum? (doc.toDatum.cut (levels + 1)) = none := by
  have hresources := depth_indexToDatum_le doc.resourceTypes
  have hmetrics := depth_indexToDatum_le doc.metricTypes
  have htree : levels < doc.tree.toDatum.depth := by
    simp only [toDatum, object, depth, depthEntries, List.map_cons, List.map_nil] at h
    omega
  have hcut : doc.toDatum.cut (levels + 1) = object [("structure", doc.tree.toDatum.cut levels),
      ("resourceTypesIndex", (indexToDatum doc.resourceTypes).cut levels),
      ("metricTypesIndex", (indexToDatum doc.metricTypes).cut levels)] := rfl
  rw [hcut, ofDatum?_object, Structure.ofDatum?_cut_of_lt doc.tree htree, Option.bind_none]

/-- The text of a document gives the document back, up to the limit of nesting, and nothing beyond it.
-/
theorem parse?_render {doc : Document} (h : doc.noReals = true) :
    parse? doc.render = if doc.toDatum.depth ≤ Json.depthLimit then some doc else none := by
  rw [parse?, render, Json.decode?_print (isPlain_toDatum h), Option.bind_some]
  split
  · next hdepth => rw [cut_of_depth_le _ hdepth, ofDatum?_toDatum h]
  · next hdepth => exact ofDatum?_cut_of_lt (by decide) (Nat.lt_of_not_le hdepth)

end Document

end Inventory

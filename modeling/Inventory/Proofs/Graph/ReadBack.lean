import Inventory.Graph.Format
import Inventory.Proofs.Snapshot.ReadBack

/-! # Graph records are read back

Resources, types and metrics without floating-point numbers are written as plain data and read back from them, and trees of
any depth are. Only an empty parent is lost: reading takes it for none (`Resource.settled`), so no resource that was read
has one.
-/

namespace Inventory

open Datum

namespace Resource

variable {r : Resource} {d : Datum}

def noReals (r : Resource) : Bool :=
  r.properties.noReals

/-- The resource with an empty parent taken for none. -/
def settled (r : Resource) : Resource :=
  if r.parentId = some "" then { r with parentId := none } else r

theorem ofDatum?_toDatum (h : r.noReals = true) : ofDatum? r.toDatum = some r.settled := by
  obtain ⟨id, name, typeId, parentId, childIds, metricIds, properties⟩ := r
  have hproperties := properties?_toDatum (p := properties) h
  cases parentId with
  | none =>
    rw [ofDatum?, toDatum, fields?_object ["id", "name", "typeId", "childIds", "metricIds", "properties"] rfl (by decide)
      (by decide)]
    simp [Fields.required, Fields.defaulted, List.lookup_cons, text?, list?_texts, hproperties, settled]
  | some parent =>
    rw [ofDatum?, toDatum, fields?_object fieldNames rfl (by decide) fun _ h => h]
    by_cases hparent : parent = "" <;>
      simp [Fields.required, Fields.defaulted, List.lookup_cons, text?, textOrNull?, list?_texts, hproperties, settled,
        hparent]

theorem isPlain_toDatum (h : r.noReals = true) : r.toDatum.isPlain = true := by
  obtain ⟨id, name, typeId, parentId, childIds, metricIds, properties⟩ := r
  have hproperties := Properties.isPlain_toDatum (p := properties) h
  cases parentId <;> simp [toDatum, isPlain_object, isPlain, isPlain_texts, hproperties]

theorem parentId_ne_empty (h : ofDatum? d = some r) : r.parentId ≠ some "" := by
  simp only [ofDatum?, Option.bind_eq_bind, Option.bind_eq_some_iff, Option.pure_def, Option.some.injEq] at h
  obtain ⟨fields, -, parent, -, id, -, name, -, typeId, -, childIds, -, metricIds, -, properties, -, rfl⟩ := h
  intro hempty
  simpa using Option.filter_eq_some_iff.1 hempty

theorem settled_eq_self (h : r.parentId ≠ some "") : r.settled = r :=
  if_neg h

end Resource

namespace ResourceType

variable {t : ResourceType}

def noReals (t : ResourceType) : Bool :=
  t.operations.all Operation.noReals && t.properties.noReals

theorem ofDatum?_toDatum (h : t.noReals = true) : ofDatum? t.toDatum = some t := by
  rw [noReals, Bool.and_eq_true, List.all_eq_true] at h
  have hoperations := list?_map t.operations fun o ho => Operation.ofDatum?_toDatum (h.1 o ho)
  rw [ofDatum?, toDatum, fields?_object fieldNames rfl (by decide) fun _ h => h]
  simp [Fields.required, Fields.defaulted, List.lookup_cons, text?, hoperations, properties?_toDatum h.2]

theorem isPlain_toDatum (h : t.noReals = true) : t.toDatum.isPlain = true := by
  rw [noReals, Bool.and_eq_true, List.all_eq_true] at h
  have hoperations : arePlain (t.operations.map Operation.toDatum) = true :=
    arePlain_iff.2 (List.forall_mem_map.2 fun o ho => Operation.isPlain_toDatum (h.1 o ho))
  simp [toDatum, isPlain_object, isPlain, hoperations, Properties.isPlain_toDatum h.2]

end ResourceType

namespace Metric

variable {m : Metric}

def noReals (m : Metric) : Bool :=
  m.properties.noReals

theorem ofDatum?_toDatum (heldBack : Bool) (h : m.noReals = true) : ofDatum? heldBack m.toDatum = some m := by
  obtain ⟨id, name, displayName, unit, interval, properties⟩ := m
  have hproperties := properties?_toDatum (p := properties) h
  have hunit : MetricUnit.ofDatum? heldBack (.text unit.name) = some unit := by cases unit <;> rfl
  rw [ofDatum?, toDatum, fields?_object fieldNames rfl (by decide) fun _ h => h]
  simp [Fields.required, Fields.defaulted, List.lookup_cons, text?, hunit, uint64?_natural, hproperties]

theorem isPlain_toDatum (h : m.noReals = true) : m.toDatum.isPlain = true := by
  have hproperties := Properties.isPlain_toDatum (p := m.properties) h
  simp [toDatum, isPlain_object, isPlain, natural, hproperties, m.collectionInterval.toNat_lt_size]

end Metric

namespace ResourceNode

theorem ofDatum?_object (id name typeId : String) (children : Datum) :
    ofDatum? (object [("id", .text id), ("name", .text name), ("typeId", .text typeId), ("children", children)]) =
      (ofList? children).map (.node id name typeId) := by
  have hfields : fieldsOfEntries? fieldNames
      [(Key.text "id", .text id), (Key.text "name", .text name), (Key.text "typeId", .text typeId),
        (Key.text "children", children)] =
      some [("id", .text id), ("name", .text name), ("typeId", .text typeId), ("children", children)] := rfl
  have hchildren : childrenOf?
      [(Key.text "id", .text id), (Key.text "name", .text name), (Key.text "typeId", .text typeId),
        (Key.text "children", children)] = ofList? children := by
    rw [childrenOf?, if_neg (by decide), childrenOf?, if_neg (by decide), childrenOf?, if_neg (by decide), childrenOf?,
      if_pos (by decide)]
  simp only [object, List.map_cons, List.map_nil]
  rw [ofDatum?, hfields, hchildren]
  cases ofList? children <;> rfl

mutual

theorem ofDatum?_toDatum : ∀ n : ResourceNode, ofDatum? n.toDatum = some n
  | .node id name typeId children => by
    rw [toDatum, ofDatum?_object, ofList?, ofItems?_toItems children, Option.map_some]

theorem ofItems?_toItems : ∀ ns : List ResourceNode, ofItems? (toItems ns) = some ns
  | [] => rfl
  | n :: rest => by
    rw [toItems, ofItems?, ofDatum?_toDatum n, Option.bind_some, ofItems?_toItems rest, Option.map_some]

end

mutual

theorem isPlain_toDatum : ∀ n : ResourceNode, n.toDatum.isPlain = true
  | .node id name typeId children => by
    have hchildren := arePlain_toItems children
    rw [toDatum, isPlain_object]
    simp [isPlain, hchildren]

theorem arePlain_toItems : ∀ ns : List ResourceNode, arePlain (toItems ns) = true
  | [] => rfl
  | n :: rest => by
    rw [toItems, arePlain, isPlain_toDatum n, arePlain_toItems rest, Bool.and_self]

end

end ResourceNode

end Inventory

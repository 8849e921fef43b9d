import Inventory.Proofs.Chunk.ReadBack
import Inventory.Proofs.Graph.ReadBack
import Inventory.Proofs.Json.Nesting

/-! # The JSON forms of records

A `Form` says how the values of a type are written as data and how they are read. One lawful form is like the other: what
is written as plain data and read back from it is read back from its text, up to the limit of nesting
(`Form.Lawful.readsBack`). The records of the graph and the chunks, written or sent, all have lawful forms.
-/

namespace Inventory

namespace Json

structure Form (α : Type) where
  toDatum : α → Datum
  ofDatum? : Datum → Option α
  /-- Whether no floating-point number occurs in a value. -/
  noReals : α → Bool

namespace Form

variable {α : Type} {form : Form α} {settle : α → α} {a : α}

def render (form : Form α) (a : α) : String :=
  print (form.toDatum a)

def parse? (form : Form α) (text : String) : Option α :=
  (decode? text).bind form.ofDatum?

/-- The values without floating-point numbers whose text does not nest too deeply to be read. -/
structure Fits (form : Form α) (a : α) : Prop where
  noReals : form.noReals a = true
  nesting_le : nesting (form.render a) ≤ 127

/-- Values that fit are read back as `settle` leaves them, and a value that was itself read is read back as it is. -/
def ReadsBack (form : Form α) (settle : α → α) : Prop :=
  (∀ a, form.Fits a → form.parse? (form.render a) = some (settle a)) ∧
    ∀ text a, form.parse? text = some a → form.Fits a → form.parse? (form.render a) = some a

structure Lawful (form : Form α) (settle : α → α) : Prop where
  isPlain : ∀ a, form.noReals a = true → (form.toDatum a).isPlain = true
  ofDatum? : ∀ a, form.noReals a = true → form.ofDatum? (form.toDatum a) = some (settle a)
  settled : ∀ d a, form.ofDatum? d = some a → settle a = a

theorem Lawful.parse?_render (h : form.Lawful settle) (ha : form.Fits a) :
    form.parse? (form.render a) = some (settle a) := by
  have hplain := h.isPlain a ha.noReals
  have hdepth : nesting (form.render a) ≤ depthLimit := ha.nesting_le
  rw [render, nesting_print hplain] at hdepth
  rw [parse?, render, decode?_print hplain, Option.bind_some, Datum.cut_of_depth_le _ hdepth, h.ofDatum? a ha.noReals]

theorem Lawful.readsBack (h : form.Lawful settle) : form.ReadsBack settle := by
  constructor
  · exact fun a ha => h.parse?_render ha
  · intro text a hread ha
    obtain ⟨d, -, hd⟩ := Option.bind_eq_some_iff.1 hread
    rw [h.parse?_render ha, h.settled d a hd]

/-- A form that loses nothing. -/
theorem lawful_id (hplain : ∀ a, form.noReals a = true → (form.toDatum a).isPlain = true)
    (hread : ∀ a, form.noReals a = true → form.ofDatum? (form.toDatum a) = some a) : form.Lawful id where
  isPlain := hplain
  ofDatum? := hread
  settled _ _ _ := rfl

end Form

end Json

open Json (Form)

def Operation.form : Form Operation :=
  ⟨Operation.toDatum, Operation.ofDatum?, Operation.noReals⟩

def Resource.form : Form Resource :=
  ⟨Resource.toDatum, Resource.ofDatum?, Resource.noReals⟩

def ResourceType.form : Form ResourceType :=
  ⟨ResourceType.toDatum, ResourceType.ofDatum?, ResourceType.noReals⟩

def Metric.form : Form Metric :=
  ⟨Metric.toDatum, Metric.ofDatum? false, Metric.noReals⟩

def ResourceNode.form : Form ResourceNode :=
  ⟨ResourceNode.toDatum, ResourceNode.ofDatum?, fun _ => true⟩

def WireChunk.form : Form WireChunk :=
  ⟨WireChunk.toDatum, WireChunk.ofDatum?, fun _ => true⟩

def ChunkRecord.form : Form ChunkRecord :=
  ⟨ChunkRecord.toDatum, ChunkRecord.ofDatum?, fun _ => true⟩

theorem Resource.lawful_form : Resource.form.Lawful Resource.settled where
  isPlain _ h := Resource.isPlain_toDatum h
  ofDatum? _ h := Resource.ofDatum?_toDatum h
  settled _ _ h := Resource.settled_eq_self (Resource.parentId_ne_empty h)

/-- Every record is read back from its JSON text, except that an empty parent is none; so no resource that was read has an
empty parent, and what was read is read again as it is. -/
theorem Json.records_readBack :
    Operation.form.ReadsBack id ∧ Resource.form.ReadsBack Resource.settled ∧ ResourceType.form.ReadsBack id ∧
    Metric.form.ReadsBack id ∧ ResourceNode.form.ReadsBack id ∧ WireChunk.form.ReadsBack id ∧
    ChunkRecord.form.ReadsBack id ∧ ∀ d r, Resource.ofDatum? d = some r → r.parentId ≠ some "" := by
  refine ⟨?operation, Resource.lawful_form.readsBack, ?resourceType, ?metric, ?node, ?wire, ?chunk,
    fun _ _ => Resource.parentId_ne_empty⟩
  case operation =>
    exact (Form.lawful_id (fun _ => Operation.isPlain_toDatum) fun _ => Operation.ofDatum?_toDatum).readsBack
  case resourceType =>
    exact (Form.lawful_id (fun _ => ResourceType.isPlain_toDatum) fun _ => ResourceType.ofDatum?_toDatum).readsBack
  case metric =>
    exact (Form.lawful_id (fun _ => Metric.isPlain_toDatum) fun _ => Metric.ofDatum?_toDatum false).readsBack
  case node =>
    exact (Form.lawful_id (fun n _ => n.isPlain_toDatum) fun n _ => n.ofDatum?_toDatum).readsBack
  case wire =>
    exact (Form.lawful_id (fun c _ => c.isPlain_toDatum) fun c _ => c.ofDatum?_toDatum).readsBack
  case chunk =>
    exact (Form.lawful_id (fun r _ => r.isPlain_toDatum) fun r _ => r.ofDatum?_toDatum).readsBack

/-- A resource that loses its empty parent, and a text that leaves out what has a default. -/
theorem Json.records_readBack_pump :
    Resource.form.Fits ⟨"p", "Pump", "pump", some "", [], ["m"], ⟨[("w", .int 3)], rfl⟩⟩ ∧
    Resource.form.parse? (Resource.form.render ⟨"p", "Pump", "pump", some "", [], ["m"], ⟨[("w", .int 3)], rfl⟩⟩) =
      some ⟨"p", "Pump", "pump", none, [], ["m"], ⟨[("w", .int 3)], rfl⟩⟩ ∧
    ResourceNode.form.parse? "[\"a\",\"A\",\"t\",[[\"b\",\"B\",\"t\"]]]" =
      some (.node "a" "A" "t" [.node "b" "B" "t" []]) ∧
    ResourceNode.form.parse? (ResourceNode.form.render (.node "a" "A" "t" [.node "b" "B" "t" []])) =
      some (.node "a" "A" "t" [.node "b" "B" "t" []]) := by
  have hpump : Resource.form.Fits ⟨"p", "Pump", "pump", some "", [], ["m"], ⟨[("w", .int 3)], rfl⟩⟩ :=
    ⟨rfl, (nesting_print rfl).trans_le (by decide)⟩
  have htree : ResourceNode.form.parse? "[\"a\",\"A\",\"t\",[[\"b\",\"B\",\"t\"]]]" =
      some (.node "a" "A" "t" [.node "b" "B" "t" []]) := by decide +kernel
  refine ⟨hpump, records_readBack.2.1.1 _ hpump, htree, ?_⟩
  exact records_readBack.2.2.2.2.1.2 _ _ htree ⟨rfl, (nesting_print rfl).trans_le (by decide)⟩

end Inventory

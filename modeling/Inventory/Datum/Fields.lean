import Inventory.SortedMap
import Inventory.Value

/-! # Reading records out of data

A record is a map of named fields, or a list of them in their declared order, of which the last ones may be
missing. A map may have further entries, which are not looked at, but names no field twice. The readers of
scalars, lists and maps are partial functions on data; `none` always means that the datum is no value of
the kind asked for.
-/

namespace Inventory

/-- The fields present in a record, each once. -/
abbrev Fields := List (String × Datum)

namespace Datum

/-- A text, which may also be given as its bytes. -/
def text? : Datum → Option String
  | .text s => some s
  | .bytes b => Text.ofUtf8? b
  | _ => none

def textOrNull? : Datum → Option (Option String)
  | .null => some none
  | d => d.text?.map some

def list? {α : Type} (read : Datum → Option α) : Datum → Option (List α)
  | .list items => items.mapM read
  | _ => none

def natural? : Datum → Option Nat
  | .unsigned n => some n
  | .signed i => if 0 ≤ i then some i.toNat else none
  | _ => none

def integer? : Datum → Option Int
  | .unsigned n => some n
  | .signed i => some i
  | _ => none

def uint64? (d : Datum) : Option UInt64 :=
  (d.natural?.filter (· < UInt64.size)).map UInt64.ofNat

def int64? (d : Datum) : Option Int64 :=
  (d.integer?.filter fun i => -0x8000000000000000 ≤ i && i < 0x8000000000000000).map Int64.ofInt

def byte? (d : Datum) : Option UInt8 :=
  (d.natural?.filter (· < UInt8.size)).map UInt8.ofNat

def entries? {α : Type} (read : Datum → Option α) : Datum → Option (List (String × α))
  | .map entries => entries.mapM fun (key, d) => do
    let key ← key.text?
    let value ← read d
    return (key, value)
  | _ => none

/-- A map; of several entries with the same key the last one counts. -/
def sortedMap? {α : Type} (read : Datum → Option α) (d : Datum) : Option (SortedMap α) :=
  (d.entries? read).map .ofList

def properties? (d : Datum) : Option Properties :=
  match h : d.entries? Value.ofDatum? with
  | none => none
  | some entries => some (.ofEntries entries (normal h))
where
  normal {d : Datum} {entries : List (String × Value)}
      (h : d.entries? Value.ofDatum? = some entries) : Value.entriesNormal entries = true := by
    cases d with
    | map source =>
      simp only [entries?] at h
      rw [Value.entriesNormal_iff]
      induction source generalizing entries with
      | nil => simp at h; simp [h]
      | cons head rest ih =>
        obtain ⟨key, d⟩ := head
        simp only [List.mapM_cons, Option.bind_eq_bind, Option.pure_def, Option.bind_eq_some_iff,
          Option.some.injEq] at h
        obtain ⟨e, ⟨k, _, v, hv, rfl⟩, more, hmore, rfl⟩ := h
        intro e he
        rcases List.mem_cons.1 he with rfl | he
        · exact Value.isNormal_of_ofDatum? _ hv
        · exact ih hmore e he
    | _ => simp [entries?] at h

/-- The field that a key names: `none` for a key that can name none, `some none` for one that names no
field of this record. -/
def fieldOf? (names : List String) : Key → Option (Option String)
  | .text s => some (names.find? (· == s))
  | .bytes b => some (names.find? fun name => Text.utf8 name == b)
  | .index n => some names[n]?
  | .other => none

def fieldsOfEntries? (names : List String) : List (Key × Datum) → Option Fields
  | [] => some []
  | (key, d) :: rest => do
    let fields ← fieldsOfEntries? names rest
    match ← fieldOf? names key with
    | none => return fields
    | some name => if (fields.lookup name).isSome then none else return (name, d) :: fields

/-- The fields of a record with the given names in declared order. -/
def fields? (names : List String) : Datum → Option Fields
  | .map entries => fieldsOfEntries? names entries
  | .list items => if items.length ≤ names.length then some (names.zip items) else none
  | _ => none

/-- One of several names: a text, or a map of just that name to nothing. A value that was held back before
its kind was known may also write nothing as an empty map. -/
def variant? (heldBack : Bool) (names : List String) : Datum → Option String
  | .text s => names.find? (· == s)
  | .map [(key, .null)] => (fieldOf? names key).join
  | .map [(key, .map [])] => if heldBack then (fieldOf? names key).join else none
  | _ => none

end Datum

namespace Fields

def required {α : Type} (fields : Fields) (name : String) (read : Datum → Option α) : Option α :=
  (fields.lookup name).bind read

def defaulted {α : Type} (fields : Fields) (name : String) (read : Datum → Option α)
    (missing : α) : Option α :=
  match fields.lookup name with
  | none => some missing
  | some d => read d

end Fields

namespace Datum

def ofSortedMap {α : Type} (toDatum : α → Datum) (m : SortedMap α) : Datum :=
  .object (m.entries.map fun e => (e.1, toDatum e.2))

def ofOption {α : Type} (toDatum : α → Datum) (a : Option α) : Datum :=
  (a.map toDatum).getD .null

end Datum

end Inventory

import Inventory.Datum
import Inventory.SortedMap

/-! # Free values

What properties and parameters hold: any value of JSON. A value is normal when its objects stand in the
order of their keys, its integers fit in 64 bits (with or without a sign) and its other numbers are
finite. `Value.ofDatum?` gives normal values only (`isNormal_of_ofDatum?`), and `Properties` is the type of
normal objects.
-/

namespace Inventory

inductive Value where
  | null
  | bool (b : Bool)
  | int (i : Int)
  | real (x : Binary64)
  | text (s : String)
  | list (items : List Value)
  | object (entries : List (String × Value))

namespace Value

mutual

def same : Value → Value → Bool
  | .null, .null => true
  | .bool a, .bool b => a == b
  | .int i, .int j => i == j
  | .real x, .real y => x == y
  | .text s, .text t => s == t
  | .list xs, .list ys => sameItems xs ys
  | .object xs, .object ys => sameEntries xs ys
  | _, _ => false

def sameItems : List Value → List Value → Bool
  | [], [] => true
  | x :: xs, y :: ys => same x y && sameItems xs ys
  | _, _ => false

def sameEntries : List (String × Value) → List (String × Value) → Bool
  | [], [] => true
  | (k, x) :: xs, (l, y) :: ys => k == l && same x y && sameEntries xs ys
  | _, _ => false

end

mutual

theorem same_iff : ∀ a b : Value, same a b = true ↔ a = b
  | .null, b => by cases b <;> simp [same]
  | .bool _, b => by cases b <;> simp [same]
  | .int _, b => by cases b <;> simp [same]
  | .real _, b => by cases b <;> simp [same]
  | .text _, b => by cases b <;> simp [same]
  | .list xs, b => by cases b <;> simp [same, sameItems_iff xs]
  | .object xs, b => by cases b <;> simp [same, sameEntries_iff xs]

theorem sameItems_iff : ∀ xs ys : List Value, sameItems xs ys = true ↔ xs = ys
  | [], ys => by cases ys <;> simp [sameItems]
  | x :: xs, ys => by cases ys <;> simp [sameItems, same_iff x, sameItems_iff xs]

theorem sameEntries_iff : ∀ xs ys : List (String × Value), sameEntries xs ys = true ↔ xs = ys
  | [], ys => by cases ys <;> simp [sameEntries]
  | (k, x) :: xs, ys => by
    cases ys <;> simp [sameEntries, same_iff x, sameEntries_iff xs, Prod.ext_iff]

end

instance : DecidableEq Value := fun a b => decidable_of_iff _ (same_iff a b)

def fits (i : Int) : Bool :=
  -0x8000000000000000 ≤ i && i < 0x10000000000000000

mutual

def isNormal : Value → Bool
  | .int i => fits i
  | .real x => x.isFinite
  | .list items => areNormal items
  | .object entries => decide (Ascending entries) && entriesNormal entries
  | _ => true

def areNormal : List Value → Bool
  | [] => true
  | v :: rest => isNormal v && areNormal rest

def entriesNormal : List (String × Value) → Bool
  | [] => true
  | (_, v) :: rest => isNormal v && entriesNormal rest

end

theorem entriesNormal_iff {entries : List (String × Value)} :
    entriesNormal entries = true ↔ ∀ e ∈ entries, isNormal e.2 = true := by
  induction entries with
  | nil => simp [entriesNormal]
  | cons e rest ih => obtain ⟨k, v⟩ := e; simp [entriesNormal, ih]

theorem isNormal_object_sortEntries {entries : List (String × Value)}
    (h : entriesNormal entries = true) : isNormal (.object (sortEntries entries)) = true := by
  simp only [isNormal, Bool.and_eq_true, decide_eq_true_eq]
  exact ⟨ascending_sortEntries entries,
    entriesNormal_iff.2 fun e he => entriesNormal_iff.1 h e (mem_sortEntries he)⟩

/-- Whether the first key of a map is given as bytes. It is by the first key that a map of free values is
known to be one, and only later keys may have that form. -/
def beginsWithBytes : List (Key × Datum) → Bool
  | (.bytes _, _) :: _ => true
  | _ => false

mutual

/-- The value that a datum denotes. Of several entries with one key the last one counts. Bytes and undefined
parts have no value, nor has a map with a key that is no text. -/
def ofDatum? : Datum → Option Value
  | .null => some .null
  | .bool b => some (.bool b)
  | .unsigned n => if fits n then some (.int n) else none
  | .signed i => if fits i then some (.int i) else none
  | .real x => some (if x.isFinite then .real x else .null)
  | .text s => some (.text s)
  | .bytes _ => none
  | .undefined => none
  | .list items => (ofItems? items).map .list
  | .map entries => if beginsWithBytes entries then none
    else (ofEntries? entries).map fun es => .object (sortEntries es)

def ofItems? : List Datum → Option (List Value)
  | [] => some []
  | d :: rest => (ofDatum? d).bind fun v => (ofItems? rest).map (v :: ·)

def ofEntries? : List (Key × Datum) → Option (List (String × Value))
  | [] => some []
  | (key, d) :: rest =>
    key.text?.bind fun k => (ofDatum? d).bind fun v => (ofEntries? rest).map ((k, v) :: ·)

end

mutual

theorem isNormal_of_ofDatum? : ∀ (d : Datum) {v : Value}, ofDatum? d = some v → isNormal v = true
  | .null => fun h => by simp only [ofDatum?, Option.some.injEq] at h; simp [← h, isNormal]
  | .bool _ => fun h => by simp only [ofDatum?, Option.some.injEq] at h; simp [← h, isNormal]
  | .unsigned n => fun h => by
    simp only [ofDatum?, Option.ite_none_right_eq_some, Option.some.injEq] at h
    rw [← h.2, isNormal, h.1]
  | .signed i => fun h => by
    simp only [ofDatum?, Option.ite_none_right_eq_some, Option.some.injEq] at h
    rw [← h.2, isNormal, h.1]
  | .real x => fun h => by
    simp only [ofDatum?, Option.some.injEq] at h
    by_cases hx : x.isFinite = true <;> simp [← h, isNormal, hx]
  | .text _ => fun h => by simp only [ofDatum?, Option.some.injEq] at h; simp [← h, isNormal]
  | .bytes _ => fun h => by simp [ofDatum?] at h
  | .undefined => fun h => by simp [ofDatum?] at h
  | .list items => fun h => by
    simp only [ofDatum?, Option.map_eq_some_iff] at h
    obtain ⟨vs, hvs, rfl⟩ := h
    simpa [isNormal] using areNormal_of_ofItems? items hvs
  | .map entries => fun h => by
    simp only [ofDatum?, Option.ite_none_left_eq_some, Option.map_eq_some_iff] at h
    obtain ⟨-, vs, hvs, rfl⟩ := h
    exact isNormal_object_sortEntries (entriesNormal_of_ofEntries? entries hvs)

theorem areNormal_of_ofItems? : ∀ (items : List Datum) {vs : List Value},
    ofItems? items = some vs → areNormal vs = true
  | [] => fun h => by simp only [ofItems?, Option.some.injEq] at h; simp [← h, areNormal]
  | d :: rest => fun h => by
    simp only [ofItems?, Option.bind_eq_some_iff, Option.map_eq_some_iff] at h
    obtain ⟨v, hv, vs, hvs, rfl⟩ := h
    simp [areNormal, isNormal_of_ofDatum? d hv, areNormal_of_ofItems? rest hvs]

theorem entriesNormal_of_ofEntries? : ∀ (entries : List (Key × Datum)) {vs : List (String × Value)},
    ofEntries? entries = some vs → entriesNormal vs = true
  | [] => fun h => by simp only [ofEntries?, Option.some.injEq] at h; simp [← h, entriesNormal]
  | (key, d) :: rest => fun h => by
    simp only [ofEntries?, Option.bind_eq_some_iff, Option.map_eq_some_iff] at h
    obtain ⟨k, -, v, hv, vs, hvs, rfl⟩ := h
    simp [entriesNormal, isNormal_of_ofDatum? d hv, entriesNormal_of_ofEntries? rest hvs]

end

mutual

def toDatum : Value → Datum
  | .null => .null
  | .bool b => .bool b
  | .int i => .integer i
  | .real x => .real x
  | .text s => .text s
  | .list items => .list (toItems items)
  | .object entries => .map (toEntries entries)

def toItems : List Value → List Datum
  | [] => []
  | v :: rest => toDatum v :: toItems rest

def toEntries : List (String × Value) → List (Key × Datum)
  | [] => []
  | (key, v) :: rest => (.text key, toDatum v) :: toEntries rest

end

end Value

/-- A normal object: free-form entries in the order of their keys. -/
structure Properties where
  entries : List (String × Value)
  normal : Value.isNormal (.object entries) = true
deriving DecidableEq

namespace Properties

def empty : Properties := ⟨[], rfl⟩

instance : Inhabited Properties := ⟨empty⟩

def ofEntries (entries : List (String × Value)) (h : Value.entriesNormal entries = true) :
    Properties :=
  ⟨sortEntries entries, Value.isNormal_object_sortEntries h⟩

def toDatum (p : Properties) : Datum :=
  .map (Value.toEntries p.entries)

end Properties

end Inventory

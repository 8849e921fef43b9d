import Inventory.Decimal.Numeral
import Inventory.Text.Utf8

/-! # Self-describing data

What a text or binary format says before anyone asks what it means: scalars, lists and maps in the order
written. A well-formed scalar or container need not denote anything (a numeral beyond double precision,
half a surrogate pair, a container nested too deeply); it is `undefined` and does no harm as long as
nobody reads it.
-/

namespace Inventory

/-- The name of an entry in a map. -/
inductive Key where
  | text (s : String)
  | bytes (b : Bytes)
  /-- The position of a field in its record. -/
  | index (n : Nat)
  /-- A key that names no field. -/
  | other
deriving DecidableEq, Repr

def Key.text? : Key → Option String
  | .text s => some s
  | .bytes b => Text.ofUtf8? b
  | _ => none

inductive Datum where
  | null
  | bool (b : Bool)
  | unsigned (n : Nat)
  | signed (i : Int)
  | real (x : Binary64)
  | text (s : String)
  | bytes (b : Bytes)
  | undefined
  | list (items : List Datum)
  | map (entries : List (Key × Datum))

namespace Datum

instance : Inhabited Datum := ⟨.null⟩

def natural (n : Nat) : Datum := .unsigned n

def integer (i : Int) : Datum :=
  if 0 ≤ i then .unsigned i.toNat else .signed i

def ofNumeral (value : NumeralValue) : Datum :=
  match value with
  | .unsigned n => .unsigned n
  | .signed i => .signed i
  | .real x => .real x
  | .none => .undefined

def object (entries : List (String × Datum)) : Datum :=
  .map (entries.map fun e => (.text e.1, e.2))

def texts (items : List String) : Datum :=
  .list (items.map .text)

mutual

/-- Whether the datum and all its parts denote something. -/
def isDefined : Datum → Bool
  | .undefined => false
  | .list items => areDefined items
  | .map entries => entriesDefined entries
  | _ => true

def areDefined : List Datum → Bool
  | [] => true
  | d :: rest => isDefined d && areDefined rest

def entriesDefined : List (Key × Datum) → Bool
  | [] => true
  | (key, d) :: rest => key != .other && isDefined d && entriesDefined rest

end

mutual

/-- The datum with every container below `levels` levels of others made undefined. -/
def cut : (levels : Nat) → Datum → Datum
  | 0, .list _ => .undefined
  | 0, .map _ => .undefined
  | levels + 1, .list items => .list (cutItems levels items)
  | levels + 1, .map entries => .map (cutEntries levels entries)
  | _, d => d

def cutItems (levels : Nat) : List Datum → List Datum
  | [] => []
  | d :: rest => cut levels d :: cutItems levels rest

def cutEntries (levels : Nat) : List (Key × Datum) → List (Key × Datum)
  | [] => []
  | (key, d) :: rest => (key, cut levels d) :: cutEntries levels rest

end

mutual

/-- How many containers stand one inside the other at most. -/
def depth : Datum → Nat
  | .list items => depthItems items + 1
  | .map entries => depthEntries entries + 1
  | _ => 0

def depthItems : List Datum → Nat
  | [] => 0
  | d :: rest => max (depth d) (depthItems rest)

def depthEntries : List (Key × Datum) → Nat
  | [] => 0
  | (_, d) :: rest => max (depth d) (depthEntries rest)

end

end Datum

end Inventory

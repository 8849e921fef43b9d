import Inventory.Json.Token

/-! # Reading JSON text

`Reader.step?` reads one token; the containers that are open stand on a stack, the innermost one first, so
any depth of nesting can be read. `read?` accepts exactly one value. `decode?` gives a text its meaning:
containers beyond `depthLimit` denote nothing.
-/

namespace Inventory.Json

/-- A container being read, its parts last one first. -/
inductive Frame where
  | items (reversed : List Datum)
  | entries (reversed : List (Key × Datum))
  /-- An open map after the key of an entry. -/
  | entry (reversed : List (Key × Datum)) (key : Key)

inductive Expectation where
  | value
  /-- A value or the end of the list just opened. -/
  | itemOrEnd
  /-- A key or the end of the map just opened. -/
  | keyOrEnd
  | key
  | colon
  /-- After a value: a comma, the end of the container, or the end of the text. -/
  | more (d : Datum)

structure Reader where
  stack : List Frame
  expectation : Expectation

namespace Reader

def start : Reader := ⟨[], .value⟩

def stepValue? (stack : List Frame) : Token → Option Reader
  | .openList => some ⟨.items [] :: stack, .itemOrEnd⟩
  | .openMap => some ⟨.entries [] :: stack, .keyOrEnd⟩
  | .text s => some ⟨stack, .more ((s.map Datum.text).getD .undefined)⟩
  | .scalar d => some ⟨stack, .more d⟩
  | _ => none

def stepKey? (stack : List Frame) (token : Token) : Option Reader :=
  match stack, token with
  | .entries reversed :: stack, .text s =>
    some ⟨.entry reversed ((s.map Key.text).getD .other) :: stack, .colon⟩
  | _, _ => none

def stepMore? (stack : List Frame) (d : Datum) (token : Token) : Option Reader :=
  match stack, token with
  | .items reversed :: stack, .comma => some ⟨.items (d :: reversed) :: stack, .value⟩
  | .items reversed :: stack, .closeList => some ⟨stack, .more (.list (d :: reversed).reverse)⟩
  | .entry reversed key :: stack, .comma => some ⟨.entries ((key, d) :: reversed) :: stack, .key⟩
  | .entry reversed key :: stack, .closeMap =>
    some ⟨stack, .more (.map ((key, d) :: reversed).reverse)⟩
  | _, _ => none

def step? (reader : Reader) (token : Token) : Option Reader :=
  match reader.expectation with
  | .value => stepValue? reader.stack token
  | .itemOrEnd =>
    match reader.stack, token with
    | .items [] :: stack, .closeList => some ⟨stack, .more (.list [])⟩
    | _, _ => stepValue? reader.stack token
  | .keyOrEnd =>
    match reader.stack, token with
    | .entries [] :: stack, .closeMap => some ⟨stack, .more (.map [])⟩
    | _, _ => stepKey? reader.stack token
  | .key => stepKey? reader.stack token
  | .colon =>
    match token with
    | .colon => some ⟨reader.stack, .value⟩
    | _ => none
  | .more d => stepMore? reader.stack d token

def result? (reader : Reader) : Option Datum :=
  match reader.stack, reader.expectation with
  | [], .more d => some d
  | _, _ => none

end Reader

def read? (s : String) : Option Datum := do
  let tokens ← tokens? s.toList
  let reader ← tokens.foldlM Reader.step? .start
  reader.result?

/-- How many containers may be open at once. -/
def depthLimit : Nat := 127

def decode? (s : String) : Option Datum :=
  (read? s).map (Datum.cut depthLimit)

end Inventory.Json

import Inventory.Datum

/-! # Tokens of JSON text

A text is read one character at a time; `LexState.step` says what a character does. A string is collected
with its escapes resolved: a surrogate escape that is not half of a pair leaves the string without a
meaning, but it remains a string. Runs of numeral characters and of letters end where another character
comes, and only then is it decided what they are.
-/

namespace Inventory.Json

inductive Token where
  | openList
  | closeList
  | openMap
  | closeMap
  | comma
  | colon
  /-- A string, or `none` if it holds half a surrogate pair. -/
  | text (s : Option String)
  | scalar (d : Datum)

/-- Where a string stands between two characters. -/
inductive Escape where
  | plain
  /-- After a backslash. -/
  | letter
  /-- After `\u`, with the digits to come and the value of those that came. -/
  | hex (left : Nat) (value : Nat)

/-- A string being read: its characters, last one first, and what is pending. -/
structure OpenText where
  reversed : List Char
  sound : Bool
  /-- A leading surrogate whose other half is awaited. -/
  lead : Option Nat
  escape : Escape

namespace OpenText

def start : OpenText := ⟨[], true, none, .plain⟩

/-- A leading surrogate that is followed by anything but its other half has no meaning. -/
def settle (t : OpenText) : OpenText :=
  if t.lead.isSome then { t with sound := false, lead := none } else t

def push (t : OpenText) (c : Char) : OpenText :=
  let t := t.settle
  { t with reversed := c :: t.reversed, escape := .plain }

def isLeadSurrogate (n : Nat) : Bool := 0xD800 ≤ n && n < 0xDC00

def isTrailSurrogate (n : Nat) : Bool := 0xDC00 ≤ n && n < 0xE000

/-- The effect of a complete `\uXXXX`. -/
def pushUnit (t : OpenText) (n : Nat) : OpenText :=
  match t.lead with
  | some lead =>
    if isTrailSurrogate n then
      let c := Char.ofNat (0x10000 + (lead - 0xD800) * 0x400 + (n - 0xDC00))
      { t with reversed := c :: t.reversed, lead := none, escape := .plain }
    else { t with sound := false, lead := none, escape := .plain }
  | none =>
    if isLeadSurrogate n then { t with lead := some n, escape := .plain }
    else if isTrailSurrogate n then { t with sound := false, escape := .plain }
    else t.push (Char.ofNat n)

def escaped? : Char → Option Char
  | '"' => some '"'
  | '\\' => some '\\'
  | '/' => some '/'
  | 'b' => some '\x08'
  | 'f' => some '\x0C'
  | 'n' => some '\n'
  | 'r' => some '\r'
  | 't' => some '\t'
  | _ => none

def finish (t : OpenText) : Option String :=
  if t.settle.sound then some (String.ofList t.reversed.reverse) else none

end OpenText

/-- Where the reader stands between two characters; tokens stand last one first. -/
inductive LexState where
  | between (tokens : List Token)
  | text (tokens : List Token) (t : OpenText)
  | numeral (tokens : List Token) (reversed : List Char)
  | word (tokens : List Token) (reversed : List Char)

namespace LexState

def isSpace (c : Char) : Bool :=
  c == ' ' || c == '\t' || c == '\n' || c == '\r'

def isNumeralChar (c : Char) : Bool :=
  c.isDigit || c == '-' || c == '+' || c == '.' || c == 'e' || c == 'E'

def punctuation? : Char → Option Token
  | '[' => some .openList
  | ']' => some .closeList
  | '{' => some .openMap
  | '}' => some .closeMap
  | ',' => some .comma
  | ':' => some .colon
  | _ => none

def word? : List Char → Option Datum
  | ['n', 'u', 'l', 'l'] => some .null
  | ['t', 'r', 'u', 'e'] => some (.bool true)
  | ['f', 'a', 'l', 's', 'e'] => some (.bool false)
  | _ => none

def numeral? (cs : List Char) : Option Datum :=
  (Numeral.read? cs).map fun n => Datum.ofNumeral n.value

/-- The tokens once a run that can end anywhere has ended. -/
def close? : LexState → Option (List Token)
  | between tokens => some tokens
  | text _ _ => none
  | numeral tokens reversed => (numeral? reversed.reverse).map (.scalar · :: tokens)
  | word tokens reversed => (word? reversed.reverse).map (.scalar · :: tokens)

/-- The effect of a character that stands outside of any token begun before it. -/
def begin? (tokens : List Token) (c : Char) : Option LexState :=
  if isSpace c then some (between tokens)
  else if c == '"' then some (text tokens .start)
  else if c.isDigit || c == '-' then some (numeral tokens [c])
  else if c.isLower then some (word tokens [c])
  else (punctuation? c).map fun token => between (token :: tokens)

def stepText? (tokens : List Token) (t : OpenText) (c : Char) : Option LexState :=
  match t.escape with
  | .plain =>
    if c == '"' then some (between (.text t.finish :: tokens))
    else if c == '\\' then some (text tokens { t with escape := .letter })
    else if c.toNat < 0x20 then none
    else some (text tokens (t.push c))
  | .letter =>
    if c == 'u' then some (text tokens { t with escape := .hex 4 0 })
    else (OpenText.escaped? c).map fun d => text tokens (t.push d)
  | .hex left value =>
    (Text.hexValue? c).map fun d =>
      let value := value * 16 + d
      if left ≤ 1 then text tokens (t.pushUnit value)
      else text tokens { t with escape := .hex (left - 1) value }

def step? (state : LexState) (c : Char) : Option LexState :=
  match state with
  | between tokens => begin? tokens c
  | text tokens t => stepText? tokens t c
  | numeral tokens reversed =>
    if isNumeralChar c then some (numeral tokens (c :: reversed))
    else state.close?.bind (begin? · c)
  | word tokens reversed =>
    if c.isLower then some (word tokens (c :: reversed))
    else state.close?.bind (begin? · c)

end LexState

def tokens? (cs : List Char) : Option (List Token) := do
  let state ← cs.foldlM LexState.step? (.between [])
  let tokens ← state.close?
  return tokens.reverse

end Inventory.Json

import Inventory.Pattern.Basic
import Inventory.Text.Blank
import Inventory.Text.Hex
import Inventory.Text.Letter
import Inventory.Text.Natural

/-! # Reading patterns

A pattern is read from left to right; `Parser.step?` reads one item of it. The groups that are open stand on a
stack. Flags change how the rest of a group is read: `i` folds the case of letters, `m` lets `^` and `$` look
at lines, `R` makes lines end with a carriage return too, `s` lets a dot be a line feed, and `x` passes over
blanks and comments. Whether a repetition takes much or little makes no difference here, so `?` after one and
the flag `U` are read and have no effect; neither has `u`.
-/

namespace Inventory.Pattern

structure Flags where
  ignoreCase : Bool
  multiLine : Bool
  crlf : Bool
  dotAll : Bool
  verbose : Bool
deriving DecidableEq, Repr

namespace Flags

def plain : Flags := ⟨false, false, false, false, false⟩

def set? (flags : Flags) (c : Char) (value : Bool) : Option Flags :=
  match c with
  | 'i' => some { flags with ignoreCase := value }
  | 'm' => some { flags with multiLine := value }
  | 'R' => some { flags with crlf := value }
  | 's' => some { flags with dotAll := value }
  | 'x' => some { flags with verbose := value }
  | 'U' => some flags
  | 'u' => some flags
  | _ => none

/-- The flags after a list of changes. Behind a minus sign flags are taken away; no flag and no minus sign
may come twice, and no minus sign last. -/
def change? (flags : Flags) (value : Bool) (seen : List Char) : List Char → Option Flags
  | [] => some flags
  | '-' :: rest =>
    if value && !rest.isEmpty then change? flags false seen rest else none
  | c :: rest =>
    if c ∈ seen then none
    else (flags.set? c value).bind fun flags => change? flags value (c :: seen) rest

def char (flags : Flags) (c : Char) : Pattern :=
  if flags.ignoreCase then
    match (CharRange.single c).folded? with
    | some r => .oneOf (CharSet.ofRanges [.single c, r])
    | none => .char c
  else .char c

def dot (flags : Flags) : Pattern :=
  .oneOf (CharSet.allBut (if flags.dotAll then [] else if flags.crlf then ['\n', '\r'] else ['\n']))

def startAnchor (flags : Flags) : Pattern :=
  .look (if flags.multiLine then (if flags.crlf then .crlfStart else .lineStart) else .textStart)

def endAnchor (flags : Flags) : Pattern :=
  .look (if flags.multiLine then (if flags.crlf then .crlfEnd else .lineEnd) else .textEnd)

end Flags

/-! ### Pieces of text -/

/-- The text behind blanks and comments; a comment goes to the end of its line. -/
def skipVerbose : (inComment : Bool) → List Char → List Char
  | _, [] => []
  | true, c :: rest => skipVerbose (c != '\n') rest
  | false, c :: rest =>
    if Text.isBlank c then skipVerbose false rest
    else if c = '#' then skipVerbose true rest
    else c :: rest

def skip (flags : Flags) (cs : List Char) : List Char :=
  if flags.verbose then skipVerbose false cs else cs

/-- The first characters with a property, at most `limit` of them if there is a limit, and the rest. With the
flag `x` blanks and comments before each of them are passed over. -/
def gather (verbose : Bool) (p : Char → Bool) :
    (limit : Option Nat) → (inComment : Bool) → List Char → List Char × List Char
  | _, _, [] => ([], [])
  | limit, true, c :: rest => gather verbose p limit (c != '\n') rest
  | limit, false, c :: rest =>
    if limit = some 0 then ([], c :: rest)
    else if verbose && Text.isBlank c then gather verbose p limit false rest
    else if verbose && c == '#' then gather verbose p limit true rest
    else if p c then
      let (taken, left) := gather verbose p (limit.map (· - 1)) false rest
      (c :: taken, left)
    else ([], c :: rest)

def gatherAll (flags : Flags) (p : Char → Bool) (cs : List Char) : List Char × List Char :=
  gather flags.verbose p none false cs

/-! ### Escapes -/

def charOfHex? (digits : List Char) : Option Char := do
  let n ← if digits.isEmpty then none else Text.hexNumber? digits
  if h : n.isValidChar then some (Char.ofNatAux n h) else none

/-- A character by its number: a fixed count of digits, or any count of them in braces. -/
def hexEscape? (flags : Flags) (width : Nat) (cs : List Char) : Option (Pattern × List Char) :=
  match skip flags cs with
  | '{' :: rest =>
    match gatherAll flags (fun c => (Text.hexValue? c).isSome) rest with
    | (digits, '}' :: rest) => (charOfHex? digits).map fun c => (flags.char c, rest)
    | _ => none
  | rest =>
    let (digits, rest) := gather flags.verbose (fun c => (Text.hexValue? c).isSome) (some width) false rest
    if digits.length = width then (charOfHex? digits).map fun c => (flags.char c, rest) else none

def namedEdge? : String → Option Look
  | "start" => some .wordStart
  | "end" => some .wordEnd
  | "start-half" => some .noWordBefore
  | "end-half" => some .noWordAfter
  | _ => none

def isEdgeNameChar (c : Char) : Bool :=
  c.isAlpha || c == '-'

/-- An edge of a word. A brace behind it may hold the name of an edge; if it holds no name at all it is left
to be read as a repetition. -/
def edgeEscape? (flags : Flags) (cs : List Char) : Option (Pattern × List Char) :=
  match cs with
  | '{' :: rest =>
    match skip flags rest with
    | [] => none
    | c :: more =>
      if isEdgeNameChar c then
        match gatherAll flags isEdgeNameChar (c :: more) with
        | (name, '}' :: rest) => (namedEdge? (String.ofList name)).map fun look => (.look look, rest)
        | _ => none
      else some (.look .wordEdge, cs)
  | _ => some (.look .wordEdge, cs)

def perlSet? : Char → Option CharSet
  | 'd' => some .digits
  | 's' => some .spaces
  | 'w' => some .wordChars
  | 'D' => some (CharSet.complement .digits)
  | 'S' => some (CharSet.complement .spaces)
  | 'W' => some (CharSet.complement .wordChars)
  | _ => none

/-- Whether a character with a backslash before it stands for itself. -/
def isEscapable (c : Char) : Bool :=
  c.toNat < 0x80 && !c.isAlphanum && c != '<' && c != '>'

def controlEscape? : Char → Option Char
  | 'a' => some '\x07'
  | 'f' => some '\x0C'
  | 't' => some '\t'
  | 'n' => some '\n'
  | 'r' => some '\r'
  | 'v' => some '\x0B'
  | _ => none

def lookEscape? : Char → Option Look
  | 'A' => some .textStart
  | 'z' => some .textEnd
  | 'B' => some .noWordEdge
  | '<' => some .wordStart
  | '>' => some .wordEnd
  | _ => none

def escape? (flags : Flags) : List Char → Option (Pattern × List Char)
  | [] => none
  | 'x' :: rest => hexEscape? flags 2 rest
  | 'u' :: rest => hexEscape? flags 4 rest
  | 'U' :: rest => hexEscape? flags 8 rest
  | 'b' :: rest => edgeEscape? flags rest
  | c :: rest =>
    if isEscapable c then some (flags.char c, rest)
    else
      ((perlSet? c).map (fun set => (.oneOf set, rest))).or <|
        ((controlEscape? c).map fun c => (flags.char c, rest)).or <|
          (lookEscape? c).map fun look => (.look look, rest)

/-! ### Sets -/

def rangesOfItem? : Pattern → Option CharSet
  | .char c => some [.single c]
  | .oneOf set => some set
  | _ => none

def charOfItem? : Pattern → Option Char
  | .char c => some c
  | _ => none

def setItem? (flags : Flags) : List Char → Option (Pattern × List Char)
  | [] => none
  | '\\' :: rest => escape? flags rest
  | c :: rest => some (.char c, rest)

/-- A set given by its name, behind the opening bracket; a `^` means all other characters. -/
def namedSet? (cs : List Char) : Option (CharSet × List Char) :=
  match cs with
  | ':' :: rest =>
    let (negated, rest) := match rest with
      | '^' :: rest => (true, rest)
      | _ => (false, rest)
    match rest.span (· != ':') with
    | (name, ':' :: ']' :: rest) =>
      (CharSet.named? (String.ofList name)).map fun set =>
        (if negated then set.complement else set, rest)
    | _ => none
  | _ => none

def behindMinus (flags : Flags) (cs : List Char) : Option Char :=
  if flags.verbose then
    match cs.dropWhile Text.isBlank with
    | '#' :: rest => (rest.dropWhile Text.isBlank).head?
    | rest => rest.head?
  else cs.head?

def setRanges? (flags : Flags) (cs : List Char) : Option (CharSet × List Char) := do
  let (first, rest) ← setItem? flags cs
  match skip flags rest with
  | '-' :: rest =>
    let next := behindMinus flags rest
    if next = some ']' ∨ next = some '-' then return (← rangesOfItem? first, '-' :: rest)
    else
      let (last, rest) ← setItem? flags (skip flags rest)
      let low ← charOfItem? first
      let high ← charOfItem? last
      if low ≤ high then return ([⟨low.toNat, high.toNat⟩], rest) else none
  | rest => return (← rangesOfItem? first, rest)

/-- The items of a set up to its closing bracket; `found` are those before. -/
def setItems? (flags : Flags) : (fuel : Nat) → (found : CharSet) → List Char →
    Option (CharSet × List Char)
  | 0, _, _ => none
  | fuel + 1, found, cs =>
    match skip flags cs with
    | ']' :: rest => some (found, rest)
    | '[' :: rest => do
      let (set, rest) ← namedSet? rest
      setItems? flags fuel (found ++ set) rest
    | '&' :: '&' :: _ => none
    | '-' :: '-' :: _ => none
    | '~' :: '~' :: _ => none
    | rest => do
      let (ranges, rest) ← setRanges? flags rest
      setItems? flags fuel (found ++ ranges) rest

/-- A set behind its opening bracket. Minus signs at its front stand for themselves, and so does a closing
bracket that comes first. -/
def set? (flags : Flags) (cs : List Char) : Option (Pattern × List Char) := do
  let cs := skip flags cs
  let (negated, cs) := match cs with
    | '^' :: rest => (true, rest)
    | _ => (false, cs)
  let (dashes, cs) := gatherAll flags (· == '-') cs
  let (found, cs) : CharSet × List Char := match dashes, cs with
    | [], ']' :: rest => ([.single ']'], rest)
    | _, _ => (dashes.map CharRange.single, cs)
  let (ranges, rest) ← setItems? flags (cs.length + 1) found cs
  let set := CharSet.ofRanges ranges
  let set := if flags.ignoreCase then set.foldCase else set
  return (.oneOf (if negated then set.complement else set), rest)

/-! ### Repetitions -/

/-- A number below 2^32. -/
def count? (flags : Flags) (cs : List Char) : Option (Nat × List Char) := do
  let (digits, rest) := gatherAll flags Char.isDigit (cs.dropWhile Text.isBlank)
  let n ← Text.natural? UInt32.size digits
  return (n, rest.dropWhile Text.isBlank)

def bounds? (flags : Flags) (cs : List Char) : Option ((Nat × Option Nat) × List Char) := do
  let (least, rest) ← count? flags (skip flags cs)
  match rest with
  | '}' :: rest => return ((least, some least), rest)
  | ',' :: rest =>
    match skip flags rest with
    | '}' :: rest => return ((least, none), rest)
    | rest =>
      match ← count? flags rest with
      | (most, '}' :: rest) => if least ≤ most then return ((least, some most), rest) else none
      | _ => none
  | _ => none

def dropLazy : List Char → List Char
  | '?' :: rest => rest
  | cs => cs

/-! ### Groups -/

inductive Opening where
  /-- Flags for the rest of the group around it. -/
  | directive (flags : Flags)
  /-- A group, with its name if it keeps its text and has one. -/
  | group (keeps : Bool) (name : Option String) (flags : Flags)

def isGroupName : List Char → Bool
  | [] => false
  | c :: rest =>
    (c == '_' || Text.isLetter c) &&
      rest.all fun c => c == '_' || c == '.' || c == '[' || c == ']' || Text.isLetterOrDigit c

def namedGroup? (flags : Flags) (cs : List Char) : Option (Opening × List Char) :=
  match cs.span (· != '>') with
  | (name, '>' :: rest) =>
    if isGroupName name then some (.group true (some (String.ofList name)) flags, rest) else none
  | _ => none

/-- Changes of flags, for a group of their own or for the rest of the group around them. Nothing is passed
over among them. -/
def flaggedGroup? (flags : Flags) (cs : List Char) : Option (Opening × List Char) :=
  match cs.span fun c => c != ':' && c != ')' with
  | (changes, ':' :: rest) =>
    (flags.change? true [] changes).map fun flags => (.group false none flags, rest)
  | (changes, ')' :: rest) =>
    if changes.isEmpty then none
    else (flags.change? true [] changes).map fun flags => (.directive flags, rest)
  | _ => none

def opening? (flags : Flags) (cs : List Char) : Option (Opening × List Char) :=
  match skip flags cs with
  | '?' :: 'P' :: '<' :: rest => namedGroup? flags rest
  | '?' :: '<' :: rest => namedGroup? flags rest
  | '?' :: rest => flaggedGroup? flags rest
  | rest => some (.group true none flags, rest)

/-- An open group: what to go back to when it ends. -/
structure OpenGroup where
  /-- The label of a group that keeps its text. -/
  label : Option GroupLabel
  flags : Flags
  /-- The alternatives of the level around the group, the last one first. -/
  choices : List Pattern
  /-- The current alternative of that level, its last part first. -/
  parts : List Pattern

structure Parser where
  flags : Flags
  /-- The groups that keep their text, the last one first, with the names they have. -/
  kept : List (Option String)
  groups : List OpenGroup
  choices : List Pattern
  parts : List Pattern

namespace Parser

def start : Parser := ⟨.plain, [], [], [], []⟩

def groupLimit : Nat := 50

def level (parser : Parser) : Pattern :=
  ofChoice (ofSequence parser.parts.reverse :: parser.choices).reverse

def push (parser : Parser) (p : Pattern) : Parser :=
  { parser with parts := p :: parser.parts }

def repeat? (parser : Parser) (least : Nat) (most : Option Nat) : Option Parser :=
  match parser.parts with
  | [] => none
  | p :: rest => some { parser with parts := ofRepetition least most p :: rest }

/-- The parser inside of a group. No name may be given twice. -/
def open? (parser : Parser) : Opening → Option Parser
  | .directive flags => some { parser with flags }
  | .group keeps name flags =>
    if parser.groups.length < groupLimit && (name.isNone || !parser.kept.contains name) then
      let label := if keeps then some ⟨parser.kept.length + 1, name⟩ else none
      some {
        flags, choices := [], parts := []
        kept := if keeps then name :: parser.kept else parser.kept
        groups := ⟨label, parser.flags, parser.choices, parser.parts⟩ :: parser.groups }
    else none

def close? (parser : Parser) : Option Parser :=
  match parser.groups with
  | [] => none
  | g :: groups =>
    let sub := match g.label with
      | some label => .group label parser.level
      | none => parser.level
    some { parser with flags := g.flags, groups, choices := g.choices, parts := sub :: g.parts }

def step? (parser : Parser) (c : Char) (rest : List Char) : Option (Parser × List Char) :=
  let flags := parser.flags
  match c with
  | '(' => do
    let (opening, rest) ← opening? flags rest
    return (← parser.open? opening, rest)
  | ')' => parser.close?.map (·, rest)
  | '|' =>
    some ({ parser with
      choices := ofSequence parser.parts.reverse :: parser.choices, parts := [] }, rest)
  | '[' => (set? flags rest).map fun (p, rest) => (parser.push p, rest)
  | '?' => (parser.repeat? 0 (some 1)).map (·, dropLazy rest)
  | '*' => (parser.repeat? 0 none).map (·, dropLazy rest)
  | '+' => (parser.repeat? 1 none).map (·, dropLazy rest)
  | '{' => do
    let ((least, most), rest) ← bounds? flags rest
    return (← parser.repeat? least most, dropLazy (skip flags rest))
  | '\\' => (escape? flags rest).map fun (p, rest) => (parser.push p, rest)
  | '.' => some (parser.push flags.dot, rest)
  | '^' => some (parser.push flags.startAnchor, rest)
  | '$' => some (parser.push flags.endAnchor, rest)
  | c => some (parser.push (flags.char c), rest)

/-- Reads to the end of the text; each item takes at least one character. -/
def run? : (fuel : Nat) → Parser → List Char → Option Pattern
  | 0, _, _ => none
  | fuel + 1, parser, cs =>
    match skip parser.flags cs with
    | [] => if parser.groups.isEmpty then some parser.level else none
    | c :: rest => (parser.step? c rest).bind fun (parser, rest) => run? fuel parser rest

end Parser

def parse? (s : String) : Option Pattern :=
  (Parser.start.run? (s.toList.length + 1) s.toList).filter isWithinLimits

end Inventory.Pattern

import Inventory.Chunk.Record
import Inventory.Pattern.Match
import Inventory.Pattern.Parser
import Inventory.Text.Cut

/-! # Tag filters

A filter is a row of conditions on the tags of a series. A condition names a tag and gives a pattern for its whole
value; a tag that is missing meets no condition. In text the conditions stand as `tag:pattern` with commas
between them.
-/

namespace Inventory

namespace Pattern

def metaChars : List Char :=
  ['\\', '.', '+', '*', '?', '(', ')', '|', '[', ']', '\x7b', '\x7d', '^', '$', '#', '&', '-', '~']

def escapeChars (cs : List Char) : List Char :=
  cs.flatMap fun c => if c ∈ metaChars then ['\\', c] else [c]

def escapeText (s : String) : String :=
  String.ofList (escapeChars s.toList)

def anchored (s : String) : String :=
  "^(?:" ++ s ++ ")$"

end Pattern

structure TagCondition where
  key : String
  pattern : Pattern

def TagCondition.holds (c : TagCondition) (tags : Tags) : Bool :=
  (tags.get? c.key).any c.pattern.occursIn

structure TagFilter where
  conditions : List TagCondition

namespace TagFilter

def empty : TagFilter := ⟨[]⟩

def withPattern (f : TagFilter) (key pattern : String) : Except Error TagFilter :=
  match Pattern.parse? (Pattern.anchored pattern) with
  | some p => .ok ⟨f.conditions ++ [⟨key, p⟩]⟩
  | none => .error (.invalidFilter (.badPattern key))

def withLiteral (f : TagFilter) (key value : String) : Except Error TagFilter :=
  f.withPattern key (Pattern.escapeText value)

def withSubstring (f : TagFilter) (key value : String) : Except Error TagFilter :=
  f.withPattern key (".*" ++ Pattern.escapeText value ++ ".*")

def withCondition (f : TagFilter) (part : List Char) : Except Error TagFilter :=
  match Text.cut? ':' part with
  | some (key, pattern) => f.withPattern (String.ofList key) (String.ofList pattern)
  | none => .error (.invalidFilter (.notKeyValue (String.ofList part)))

/-- Conditions with commas between them; blanks around them and empty ones do not count. -/
def parse (text : String) : Except Error TagFilter :=
  let parts := (Text.pieces ',' text.toList).map Text.trimChars
  (parts.filter (!·.isEmpty)).foldlM withCondition empty

def holds (f : TagFilter) (tags : Tags) : Bool :=
  f.conditions.all (·.holds tags)

end TagFilter

end Inventory

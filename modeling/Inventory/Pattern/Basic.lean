import Inventory.Pattern.Class

/-! # Patterns

A pattern describes pieces of text. Its leaves are single characters, sets of characters, and conditions on
what stands to the left and to the right of a place in the text. `Pattern.totalCost` is what a pattern costs when all
its repetitions are written out, `Pattern.height` how deep it is nested.
-/

namespace Inventory

inductive Look where
  | textStart
  | textEnd
  | lineStart
  | lineEnd
  /-- As `lineStart`, where a line ends with a carriage return, a line feed, or both. -/
  | crlfStart
  | crlfEnd
  | wordEdge
  | noWordEdge
  | wordStart
  | wordEnd
  | noWordBefore
  | noWordAfter
deriving DecidableEq, Repr

namespace Look

def isWord (c : Option Char) : Bool :=
  c.any CharSet.wordChars.contains

/-- Whether the condition holds between two characters; at the ends of the text there is none. -/
def holds (look : Look) (before after : Option Char) : Bool :=
  match look with
  | .textStart => before.isNone
  | .textEnd => after.isNone
  | .lineStart => before.isNone || before == some '\n'
  | .lineEnd => after.isNone || after == some '\n'
  | .crlfStart =>
    before.isNone || before == some '\n' || (before == some '\r' && after != some '\n')
  | .crlfEnd => after.isNone || after == some '\r' || (after == some '\n' && before != some '\r')
  | .wordEdge => isWord before != isWord after
  | .noWordEdge => isWord before == isWord after
  | .wordStart => !isWord before && isWord after
  | .wordEnd => isWord before && !isWord after
  | .noWordBefore => !isWord before
  | .noWordAfter => !isWord after

end Look

/-- What a group that keeps its text is known by: its number, counted from 1, and its name if it has one. -/
structure GroupLabel where
  number : Nat
  name : Option String
deriving DecidableEq, Repr

inductive Pattern where
  | empty
  | char (c : Char)
  | oneOf (set : CharSet)
  | look (look : Look)
  /-- At least `least` times, and at most `most` times if there is such a bound. -/
  | repeated (least : Nat) (most : Option Nat) (sub : Pattern)
  | group (label : GroupLabel) (sub : Pattern)
  | sequence (subs : List Pattern)
  | choice (subs : List Pattern)

namespace Pattern

/-- The sequence of some patterns, which is no sequence if there is only one. -/
def ofSequence : List Pattern → Pattern
  | [] => .empty
  | [p] => p
  | ps => .sequence ps

def ofChoice : List Pattern → Pattern
  | [p] => p
  | ps => .choice ps

/-- A repetition, unless it is the pattern itself or no text at all. -/
def ofRepetition (least : Nat) (most : Option Nat) (sub : Pattern) : Pattern :=
  match least, most with
  | 0, some 0 => .empty
  | 1, some 1 => sub
  | _, _ => .repeated least most sub

mutual

/-- How many patterns stand one inside the other above the deepest leaf. -/
def height : Pattern → Nat
  | .repeated _ _ sub => height sub + 1
  | .group _ sub => height sub + 1
  | .sequence subs => heights subs + 1
  | .choice subs => heights subs + 1
  | _ => 0

def heights : List Pattern → Nat
  | [] => 0
  | p :: rest => max (height p) (heights rest)

end

mutual

/-- Whether the pattern can take no text at all, conditions aside. -/
def isNullable : Pattern → Bool
  | .empty => true
  | .char _ => false
  | .oneOf _ => false
  | .look _ => true
  | .repeated least _ sub => least == 0 || isNullable sub
  | .group _ sub => isNullable sub
  | .sequence subs => allNullable subs
  | .choice subs => anyNullable subs

def allNullable : List Pattern → Bool
  | [] => true
  | p :: rest => isNullable p && allNullable rest

def anyNullable : List Pattern → Bool
  | [] => false
  | p :: rest => isNullable p || anyNullable rest

end

def stateCost : Nat := 32

def forkCost : Nat := stateCost + 2 * 4

def rowCost (n part : Nat) : Nat :=
  if n = 0 then stateCost else n * part

def repeatedCost (least : Nat) (most : Option Nat) (nullable : Bool) (part : Nat) : Nat :=
  match least, most with
  | 0, some 1 => forkCost + part + stateCost
  | 0, none => if nullable then part + 2 * forkCost + stateCost else forkCost + part
  | least, none => least * part + forkCost
  | least, some most =>
    if least = most then rowCost least part
    else rowCost least part + stateCost + (most - least) * (forkCost + part)

mutual

def cost : Pattern → Nat
  | .empty => stateCost
  | .char _ => stateCost
  | .oneOf set => stateCost + 8 * set.length
  | .look _ => stateCost
  | .repeated least most sub => repeatedCost least most (isNullable sub) (cost sub)
  | .group _ sub => cost sub + 2 * stateCost
  | .sequence subs => costs subs
  | .choice subs => costs subs + 2 * stateCost + 4 * subs.length

def costs : List Pattern → Nat
  | [] => 0
  | p :: rest => cost p + costs rest

end

mutual

def labels : Pattern → List GroupLabel
  | .repeated _ _ sub => labels sub
  | .group label sub => label :: labels sub
  | .sequence subs => labelsOfAll subs
  | .choice subs => labelsOfAll subs
  | _ => []

def labelsOfAll : List Pattern → List GroupLabel
  | [] => []
  | p :: rest => labels p ++ labelsOfAll rest

end

/-- The cost of the list of groups: a place for each number up to the highest, counted from 0 for the whole
text that is found, and the names with their numbers. -/
def labelCost (labels : List GroupLabel) : Nat :=
  let highest := labels.foldl (fun n label => max n label.number) 0
  let names := labels.filterMap (·.name)
  16 * (highest + 1) + names.foldl (fun n name => n + name.utf8ByteSize + 4) 0

def totalCost (p : Pattern) : Nat :=
  p.cost + 3 * stateCost + labelCost p.labels

def heightLimit : Nat := 50

def costLimit : Nat := 10 * 1024 * 1024

def isWithinLimits (p : Pattern) : Bool :=
  p.height ≤ heightLimit && p.totalCost ≤ costLimit

end Pattern

end Inventory

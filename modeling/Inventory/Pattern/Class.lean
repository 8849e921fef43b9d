/-! # Sets of characters

A set of characters is a list of closed ranges of code points. `CharSet.ofRanges` gives the ranges in
ascending order with gaps between them. Folding of case knows ASCII letters only.
-/

namespace Inventory

structure CharRange where
  low : Nat
  high : Nat
deriving DecidableEq, Repr

namespace CharRange

def single (c : Char) : CharRange := ⟨c.toNat, c.toNat⟩

def contains (r : CharRange) (c : Char) : Bool :=
  r.low ≤ c.toNat && c.toNat ≤ r.high

def inter? (r s : CharRange) : Option CharRange :=
  let low := max r.low s.low
  let high := min r.high s.high
  if low ≤ high then some ⟨low, high⟩ else none

def small : CharRange := ⟨0x61, 0x7A⟩

def capital : CharRange := ⟨0x41, 0x5A⟩

/-- The letters of a range in the other case: those of its small letters if it has any, else those of its
capitals. -/
def folded? (r : CharRange) : Option CharRange :=
  match r.inter? small with
  | some s => some ⟨s.low - 32, s.high - 32⟩
  | none => (r.inter? capital).map fun s => ⟨s.low + 32, s.high + 32⟩

end CharRange

abbrev CharSet := List CharRange

namespace CharSet

def contains (set : CharSet) (c : Char) : Bool :=
  set.any (·.contains c)

/-- Puts a range into ranges in order, joining those that meet. -/
def insertRange (r : CharRange) : CharSet → CharSet
  | [] => [r]
  | s :: rest =>
    if r.high + 1 < s.low then r :: s :: rest
    else if s.high + 1 < r.low then s :: insertRange r rest
    else insertRange ⟨min r.low s.low, max r.high s.high⟩ rest

def ofRanges (ranges : List CharRange) : CharSet :=
  ranges.foldl (fun set r => insertRange r set) []

def lastPoint : Nat := 0x10FFFF

/-- The gaps between ranges in order, from a code point on. -/
def gapsFrom (start : Nat) : CharSet → CharSet
  | [] => if start ≤ lastPoint then [⟨start, lastPoint⟩] else []
  | r :: rest =>
    if start < r.low then ⟨start, r.low - 1⟩ :: gapsFrom (r.high + 1) rest
    else gapsFrom (r.high + 1) rest

/-- All other characters, for a set with its ranges in order. -/
def complement (set : CharSet) : CharSet :=
  gapsFrom 0 set

def foldCase (set : CharSet) : CharSet :=
  ofRanges (set ++ set.filterMap CharRange.folded?)

def ofPairs (pairs : List (Char × Char)) : CharSet :=
  pairs.map fun (low, high) => ⟨low.toNat, high.toNat⟩

def digits : CharSet := ofPairs [('0', '9')]

def spaces : CharSet := ofPairs [('\t', '\r'), (' ', ' ')]

def wordChars : CharSet := ofPairs [('0', '9'), ('A', 'Z'), ('_', '_'), ('a', 'z')]

def named? : String → Option CharSet
  | "alnum" => some (ofPairs [('0', '9'), ('A', 'Z'), ('a', 'z')])
  | "alpha" => some (ofPairs [('A', 'Z'), ('a', 'z')])
  | "ascii" => some (ofPairs [('\x00', '\x7F')])
  | "blank" => some (ofPairs [('\t', '\t'), (' ', ' ')])
  | "cntrl" => some (ofPairs [('\x00', '\x1F'), ('\x7F', '\x7F')])
  | "digit" => some digits
  | "graph" => some (ofPairs [('!', '~')])
  | "lower" => some (ofPairs [('a', 'z')])
  | "print" => some (ofPairs [(' ', '~')])
  | "punct" => some (ofPairs [('!', '/'), (':', '@'), ('[', '\x60'), ('\x7b', '~')])
  | "space" => some spaces
  | "upper" => some (ofPairs [('A', 'Z')])
  | "word" => some wordChars
  | "xdigit" => some (ofPairs [('0', '9'), ('A', 'F'), ('a', 'f')])
  | _ => none

def allBut (chars : List Char) : CharSet :=
  complement (ofRanges (chars.map CharRange.single))

end CharSet

end Inventory

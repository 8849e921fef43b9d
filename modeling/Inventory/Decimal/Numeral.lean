import Inventory.Decimal.Binary64
import Inventory.Text.Natural

/-! # Numerals and the numbers they name

A numeral is an optional minus sign, digits without a leading zero, and perhaps a fraction and an
exponent. `Numeral.read?` takes it apart and `Numeral.value` gives its number: an integer if there is
neither fraction nor exponent and 64 bits hold it, otherwise one of double precision. The latter comes
from a significand below `2 ^ 64` and a power of ten by one rounded multiplication or by rounded
divisions; it is the nearest one only as far as these roundings allow.
-/

namespace Inventory

structure Numeral where
  negative : Bool
  whole : List Char
  fraction : List Char
  exponent : Int
  /-- Whether a fraction or an exponent is written. -/
  fractional : Bool

/-- The number that a numeral names; `none` stands for one beyond double precision. -/
inductive NumeralValue where
  | unsigned (n : Nat)
  | signed (i : Int)
  | real (x : Binary64)
  | none

namespace Numeral

def digits (cs : List Char) : List Char × List Char :=
  (cs.takeWhile Char.isDigit, cs.dropWhile Char.isDigit)

/-- The digits after a sign or none, which must be all that is left. -/
def readExponent? : List Char → Option Int
  | '+' :: cs => magnitude? cs
  | '-' :: cs => (magnitude? cs).map (- ·)
  | cs => magnitude? cs
where
  magnitude? (cs : List Char) : Option Int :=
    if cs.isEmpty then .none else (Text.digitsValue? 0 cs).map Int.ofNat

def readTail? (negative : Bool) (whole : List Char) : List Char → Option Numeral
  | [] => some ⟨negative, whole, [], 0, false⟩
  | '.' :: cs =>
    match digits cs with
    | ([], _) => .none
    | (fraction, []) => some ⟨negative, whole, fraction, 0, true⟩
    | (fraction, mark :: rest) =>
      if mark = 'e' ∨ mark = 'E' then
        (readExponent? rest).map fun e => ⟨negative, whole, fraction, e, true⟩
      else .none
  | mark :: rest =>
    if mark = 'e' ∨ mark = 'E' then
      (readExponent? rest).map fun e => ⟨negative, whole, [], e, true⟩
    else .none

def readMagnitude? (negative : Bool) (cs : List Char) : Option Numeral :=
  match digits cs with
  | ([], _) => .none
  | ('0' :: _ :: _, _) => .none
  | (whole, rest) => readTail? negative whole rest

def read? : List Char → Option Numeral
  | '-' :: cs => readMagnitude? true cs
  | cs => readMagnitude? false cs

/-- Takes digits into a significand as long as it stays below `2 ^ 64`; returns those left over. -/
def accumulate (value : Nat) : List Char → Nat × List Char
  | [] => (value, [])
  | c :: rest =>
    let next := value * 10 + (c.toNat - '0'.toNat)
    if next < UInt64.size then accumulate next rest else (value, c :: rest)

def powerOfTen (k : Nat) : Binary64 :=
  .nearest ⟨Nat.pow 10 k, 1⟩

/-- A magnitude times a power of ten: a product, or quotients by at most `10 ^ 308` each. -/
def scaleByTen? (x : Binary64) (e : Int) : Option Binary64 :=
  if e.natAbs ≤ 308 then
    if 0 ≤ e then some (x.mulMagnitude (powerOfTen e.natAbs)) |>.filter (·.isFinite)
    else some (x.divMagnitude (powerOfTen e.natAbs))
  else if x.isZero then some x
  else if 0 ≤ e then .none
  else scaleByTen? (x.divMagnitude (powerOfTen 308)) (e + 308)
termination_by e.natAbs
decreasing_by omega

def integer (negative : Bool) (n : Nat) : NumeralValue :=
  if !negative then .unsigned n
  else if 0 < n ∧ n ≤ 0x8000000000000000 then .signed (-n)
  else .real ((Binary64.nearest ⟨n, 1⟩).withSign true)

def value (numeral : Numeral) : NumeralValue :=
  let (significand, dropped) := accumulate 0 numeral.whole
  if !numeral.fractional && dropped.isEmpty then integer numeral.negative significand
  else
    let (significand, unused) := accumulate significand numeral.fraction
    let used := numeral.fraction.length - unused.length
    let exponent : Int := dropped.length - used + numeral.exponent
    match scaleByTen? (.nearest ⟨significand, 1⟩) exponent with
    | some x => .real (x.withSign numeral.negative)
    | .none => .none

end Numeral

end Inventory

import Inventory.Decimal.Binary64
import Inventory.Text.Natural

/-! # The shortest decimal that reads back

Of the decimals within the interval of reals that round to a number, `shortest` takes one with the fewest
digits, of these the nearest, of two equally near the even one. On a grid of decimals with a given number
of digits only the two neighbours of the number have to be tried. `render` lays the digits out:
positionally from `1e-5` up to below `1e16`, with an exponent elsewhere.
-/

namespace Inventory.Decimal

open Binary64 (Ratio fractionCount)

/-- A decimal `digits * 10 ^ exponent`. -/
structure Scaled where
  digits : Nat
  exponent : Int

def Scaled.ratio (d : Scaled) : Ratio :=
  if 0 ≤ d.exponent then ⟨d.digits * Nat.pow 10 d.exponent.toNat, 1⟩
  else ⟨d.digits, Nat.pow 10 (-d.exponent).toNat⟩

def ratioLt (a b : Ratio) : Bool :=
  a.num * b.den < b.num * a.den

/-- The reals that round to a finite magnitude lie between `low` and `high`. -/
structure Interval where
  low : Ratio
  high : Ratio
  /-- Whether the ends round to the number too. -/
  closed : Bool

def Interval.of (x : Binary64) : Interval :=
  let m := x.significand
  let atPowerOfTwo := m = fractionCount ∧ 1 < x.exponentField
  let unit (n : Nat) := Ratio.shift ⟨n, 1⟩ (x.exponent - 2)
  ⟨unit (if atPowerOfTwo then 4 * m - 1 else 4 * m - 2), unit (4 * m + 2), m % 2 == 0⟩

def Interval.contains (i : Interval) (d : Ratio) : Bool :=
  if i.closed then !ratioLt d i.low && !ratioLt i.high d
  else ratioLt i.low d && ratioLt d i.high

/-- The exponent of the first decimal digit of a positive ratio. -/
def leadingExponent (r : Ratio) : Int :=
  if r.den ≤ r.num then ((Text.decimal (r.num / r.den)).length : Int) - 1
  else - ((Text.decimal ((r.den + r.num - 1) / r.num - 1)).length : Int)

/-- The better of the two neighbours of a ratio on the grid of multiples of `10 ^ exponent`. -/
def neighbour? (i : Interval) (r : Ratio) (exponent : Int) : Option Scaled :=
  let step := Scaled.ratio ⟨1, exponent⟩
  let position : Ratio := ⟨r.num * step.den, r.den * step.num⟩
  let below : Scaled := ⟨position.num / position.den, exponent⟩
  let above : Scaled := ⟨below.digits + 1, exponent⟩
  match i.contains below.ratio && 0 < below.digits, i.contains above.ratio with
  | true, false => some below
  | false, true => some above
  | true, true => some ⟨position.round, exponent⟩
  | false, false => none

/-- The first grid, from the coarsest on, with a neighbour inside the interval. -/
def search (i : Interval) (r : Ratio) (leading : Int) : (grids : Nat) → Scaled
  | 0 => (neighbour? i r (leading - 16)).getD ⟨0, 0⟩
  | grids + 1 =>
    match neighbour? i r (leading - 16 + (grids + 1 : Nat)) with
    | some d => d
    | none => search i r leading grids

/-- The shortest decimal of a finite magnitude other than zero. -/
def shortest (x : Binary64) : Scaled :=
  search (.of x) x.magnitude (leadingExponent x.magnitude) 16

def stripZeros (cs : List Char) : List Char × Nat :=
  let reversed := cs.reverse
  ((reversed.dropWhile (· == '0')).reverse, (reversed.takeWhile (· == '0')).length)

def zeros (n : Nat) : List Char :=
  List.replicate n '0'

/-- Digits whose first one stands `point` places before the decimal point. -/
def layout (digits : List Char) (point : Int) : List Char :=
  if 0 < point ∧ point ≤ 16 then
    let n := point.toNat
    if digits.length ≤ n then digits ++ zeros (n - digits.length) ++ ['.', '0']
    else digits.take n ++ '.' :: digits.drop n
  else if -5 < point ∧ point ≤ 0 then '0' :: '.' :: (zeros (-point).toNat ++ digits)
  else
    let fraction := digits.drop 1
    let exponent := point - 1
    digits.take 1 ++ (if fraction.isEmpty then [] else '.' :: fraction) ++
      ('e' :: (if 0 ≤ exponent then '+' else '-') :: Text.decimal exponent.natAbs)

def render (x : Binary64) : List Char :=
  let sign := if x.isNegative then ['-'] else []
  if x.isZero then sign ++ ['0', '.', '0']
  else
    let d := shortest x
    let (digits, stripped) := stripZeros (Text.decimal d.digits)
    sign ++ layout digits (digits.length + stripped + d.exponent)

end Inventory.Decimal

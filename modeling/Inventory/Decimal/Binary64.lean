/-! # Numbers of double precision

A number is its 64 bits. `nearest` rounds an exact ratio, ties to the even significand, and products and
quotients are the exact ones rounded. Everything is arithmetic on natural numbers.
-/

namespace Inventory

/-- A binary floating-point number of 64 bits: sign, eleven bits of exponent, 52 of fraction. -/
structure Binary64 where
  bits : UInt64
deriving DecidableEq, Repr

namespace Binary64

/-- The bit of the sign, `2 ^ 63`. -/
def signBit : Nat := 0x8000000000000000

/-- How many fractions there are, `2 ^ 52`. -/
def fractionCount : Nat := 0x10000000000000

def isNegative (x : Binary64) : Bool :=
  signBit ≤ x.bits.toNat

def exponentField (x : Binary64) : Nat :=
  x.bits.toNat / fractionCount % 0x800

def fractionField (x : Binary64) : Nat :=
  x.bits.toNat % fractionCount

def isFinite (x : Binary64) : Bool :=
  x.exponentField < 2047

def isZero (x : Binary64) : Bool :=
  x.exponentField == 0 && x.fractionField == 0

/-- The magnitude of a finite number is `significand * 2 ^ exponent`. -/
def significand (x : Binary64) : Nat :=
  if x.exponentField = 0 then x.fractionField else fractionCount + x.fractionField

def exponent (x : Binary64) : Int :=
  (max 1 x.exponentField : Nat) - 1075

/-- A ratio of natural numbers, the denominator positive. -/
structure Ratio where
  num : Nat
  den : Nat

def Ratio.shift (r : Ratio) (e : Int) : Ratio :=
  if 0 ≤ e then ⟨r.num <<< e.toNat, r.den⟩ else ⟨r.num, r.den <<< (-e).toNat⟩

/-- The nearest natural number, of two equally near the even one. -/
def Ratio.round (r : Ratio) : Nat :=
  let q := r.num / r.den
  let twice := 2 * (r.num % r.den)
  if twice < r.den then q
  else if r.den < twice then q + 1
  else q + q % 2

def magnitude (x : Binary64) : Ratio :=
  Ratio.shift ⟨x.significand, 1⟩ x.exponent

/-- The exponent at which the significand of a positive ratio has 53 bits, but not below the least. -/
def Ratio.scale (r : Ratio) : Int :=
  let guess : Int := (r.num.log2 : Int) - r.den.log2 - 52
  let atGuess := r.shift (-guess)
  max (if atGuess.num < fractionCount * atGuess.den then guess - 1 else guess) (-1074)

def infinityBits : Nat := 2047 * fractionCount

/-- The bits of the magnitude nearest to a ratio; too large a ratio gives infinity. -/
def Ratio.nearestBits (r : Ratio) : Nat :=
  if r.num = 0 then 0
  else
    let e := r.scale
    min ((e + 1074).toNat * fractionCount + (r.shift (-e)).round) infinityBits

def nearest (r : Ratio) : Binary64 :=
  ⟨UInt64.ofNat r.nearestBits⟩

def withSign (negative : Bool) (x : Binary64) : Binary64 :=
  let magnitude := x.bits.toNat % signBit
  ⟨UInt64.ofNat (if negative then signBit + magnitude else magnitude)⟩

def mulMagnitude (x y : Binary64) : Binary64 :=
  nearest ⟨x.magnitude.num * y.magnitude.num, x.magnitude.den * y.magnitude.den⟩

/-- The rounded quotient of two finite magnitudes, the second not zero. -/
def divMagnitude (x y : Binary64) : Binary64 :=
  nearest ⟨x.magnitude.num * y.magnitude.den, x.magnitude.den * y.magnitude.num⟩

/-- The same number from its 32-bit form, which widening never rounds. -/
def ofBits32 (bits : Nat) : Binary64 :=
  let negative := bits / 0x80000000 % 2 == 1
  let field := bits / 0x800000 % 0x100
  let fraction := bits % 0x800000
  let magnitude : Binary64 :=
    if field = 255 then ⟨UInt64.ofNat (infinityBits + fraction * 0x20000000)⟩
    else
      let significand := if field = 0 then fraction else 0x800000 + fraction
      nearest (Ratio.shift ⟨significand, 1⟩ ((max 1 field : Nat) - 150))
  magnitude.withSign negative

end Binary64

end Inventory

/-! # Decimal numerals

`decimal` writes a number without leading zeros, `natural?` reads digits (with an optional plus sign)
below a bound.
-/

namespace Inventory.Text

def digitChar (d : Nat) : Char :=
  Char.ofNat ('0'.toNat + d)

def digitValue? (c : Char) : Option Nat :=
  if c.isDigit then some (c.toNat - '0'.toNat) else none

theorem digitValue?_digitChar {d : Nat} (h : d < 10) : digitValue? (digitChar d) = some d := by
  have : ∀ d : Fin 10, digitValue? (digitChar d) = some d.val := by decide
  exact this ⟨d, h⟩

def decimal (n : Nat) : List Char :=
  if n < 10 then [digitChar n] else decimal (n / 10) ++ [digitChar (n % 10)]
termination_by n
decreasing_by omega

def decimalText (n : Nat) : String :=
  String.ofList (decimal n)

def integerText (i : Int) : String :=
  if i < 0 then String.ofList ('-' :: decimal i.natAbs) else decimalText i.natAbs

/-- The value of digits after a number whose value is already known. -/
def digitsValue? (value : Nat) : List Char → Option Nat
  | [] => some value
  | c :: rest => (digitValue? c).bind fun d => digitsValue? (value * 10 + d) rest

theorem digitsValue?_append (value : Nat) (xs ys : List Char) :
    digitsValue? value (xs ++ ys) = (digitsValue? value xs).bind fun v => digitsValue? v ys := by
  induction xs generalizing value with
  | nil => rfl
  | cons c rest ih =>
    cases h : digitValue? c <;> simp [digitsValue?, h, ih]

theorem digitsValue?_decimal (n : Nat) : digitsValue? 0 (decimal n) = some n := by
  induction n using decimal.induct with
  | case1 n h => rw [decimal]; simp [h, digitsValue?, digitValue?_digitChar h]
  | case2 n h ih =>
    rw [decimal]
    simp only [h, if_false, digitsValue?_append, ih, Option.bind_some, digitsValue?]
    rw [digitValue?_digitChar (Nat.mod_lt _ (by decide))]
    simp only [Option.bind_some, Option.some.injEq]
    omega

/-- At least one digit, perhaps after a plus sign, naming a number below the bound. -/
def natural? (bound : Nat) (cs : List Char) : Option Nat :=
  let digits := match cs with
    | '+' :: rest => rest
    | _ => cs
  if digits.isEmpty then none
  else (digitsValue? 0 digits).filter (· < bound)

end Inventory.Text

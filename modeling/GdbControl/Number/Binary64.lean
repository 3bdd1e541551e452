/-!
Binary floating-point numbers of 64 bits. Every finite one is a whole number of units of 2^-1074,
and its magnitude is kept as that number, so reading a decimal is exact arithmetic on naturals. Powers
are written `Nat.pow`, which means the same whatever is imported.
Arithmetic between two such numbers is not modelled: configuration only reads and writes them.
-/

namespace GdbControl

/-- A floating-point number. A finite one is `units` times 2^-1074, and zero has two signs. -/
inductive Binary64 where
  | nan
  | infinite (negative : Bool)
  | finite (negative : Bool) (units : Nat)
deriving DecidableEq, Repr

namespace Binary64

def isZero : Binary64 → Bool
  | .finite _ units => units == 0
  | _ => false

/-- The distance from a magnitude to the next greater one. A significand has 53 binary digits, and
no distance is below one unit. -/
def spacing (units : Nat) : Nat := Nat.pow 2 (units.log2 - 52)

/-- The first magnitude that is too great: 2^1024. -/
def overflow : Nat := Nat.pow 2 2098

/-- A quotient as a whole number, where a half goes to the even neighbour. -/
def roundedQuotient (dividend divisor : Nat) : Nat :=
  let quotient := dividend / divisor
  let doubled := 2 * (dividend % divisor)
  if doubled < divisor || (doubled == divisor && quotient % 2 == 0) then quotient else quotient + 1

/-- The number nearest to a quotient of units. One that is half way between two goes to the even
significand. -/
def nearest (negative : Bool) (dividend divisor : Nat) : Binary64 :=
  let step := spacing (dividend / divisor)
  let units := step * roundedQuotient dividend (step * divisor)
  if units < overflow then .finite negative units else .infinite negative

/-- How many decimal digits write a number. -/
def digitCount (value : Nat) : Nat := (Nat.toDigits 10 value).length

/-- The number nearest to `coefficient` times ten to the power `exponent`. Below 10^-324 that is
zero, and from 10^309 on it is infinite, whatever the digits are. -/
def ofDecimal (negative : Bool) (coefficient : Nat) (exponent : Int) : Binary64 :=
  let size := exponent + digitCount coefficient
  if coefficient == 0 || size < -323 then .finite negative 0
  else if 309 < size then .infinite negative
  else nearest negative (coefficient * Nat.pow 10 exponent.toNat * Nat.pow 2 1074)
    (Nat.pow 10 (-exponent).toNat)

example : ofDecimal false 1 0 = .finite false (2 ^ 1074) := by decide +kernel
example : ofDecimal false 49 (-325) = .finite false 1 := by decide +kernel
example : ofDecimal false 24 (-325) = .finite false 0 := by decide +kernel
example : ofDecimal false (2 ^ 53 + 1) 0 = ofDecimal false (2 ^ 53) 0 := by decide +kernel
example : ofDecimal false (2 ^ 53 + 3) 0 = ofDecimal false (2 ^ 53 + 4) 0 := by decide +kernel
example : ofDecimal true 1797693134862315807 290 = .finite true (2 ^ 2098 - 2 ^ 2045) := by
  decide +kernel
example : ofDecimal true 1797693134862315808 290 = .infinite true := by decide +kernel

end Binary64
end GdbControl

import GdbControl.Number.Binary64

/-!
The text of a floating-point number: the fewest decimal digits that read back as it, and of those
the nearest. It is written positionally from 0.0001 up to sixteen digits before the point, and with
an exponent beyond.
-/

namespace GdbControl.Binary64

/-- The number `coefficient` times ten to the power `exponent`. -/
structure Decimal where
  coefficient : Nat
  exponent : Int
deriving DecidableEq, Repr

/-- A magnitude in units of 10^-1074, in which it is whole. -/
def decimalUnits (units : Nat) : Nat := units * Nat.pow 5 1074

/-- A decimal without the last `places` decimal units that reads back as the magnitude. It is one of
the two neighbours of the magnitude among such decimals, and the nearer one where both would do; half
way between them the even one is. -/
def decimalOf? (units places : Nat) : Option Decimal :=
  let exact := decimalUnits units
  let below := exact / Nat.pow 10 places
  let candidates := [roundedQuotient exact (Nat.pow 10 places), below, below + 1].map fun coefficient =>
    Decimal.mk coefficient (places - 1074)
  candidates.find? fun candidate =>
    ofDecimal false candidate.coefficient candidate.exponent == .finite false units

/-- The shortest decimal that reads back as the magnitude. Seventeen digits are always enough; the
last resort writes all of them. -/
def shortest (units : Nat) : Decimal :=
  let size := digitCount (decimalUnits units)
  ((List.range 17).findSome? fun count => decimalOf? units (size - (count + 1))).getD
    ⟨decimalUnits units, -1074⟩

/-- A number of at least two digits. -/
def twoDigits (value : Nat) : List Char :=
  if value < 10 then '0' :: Nat.toDigits 10 value else Nat.toDigits 10 value

/-- The layout of `0.d₁d₂…` times ten to the power `point`. -/
def layout (digits : List Char) (point : Int) : List Char :=
  if point ≤ -4 || 16 < point then
    let mantissa := match digits with
      | first :: next :: rest => first :: '.' :: next :: rest
      | _ => digits
    let exponent := point - 1
    mantissa ++ 'e' :: (if exponent < 0 then '-' else '+') :: twoDigits exponent.natAbs
  else if point ≤ 0 then
    '0' :: '.' :: List.replicate point.natAbs '0' ++ digits
  else
    let whole := digits.take point.toNat
    let fraction := digits.drop point.toNat
    whole ++ List.replicate (point.toNat - whole.length) '0' ++
      '.' :: if fraction.isEmpty then ['0'] else fraction

/-- The text of a magnitude other than zero. -/
def magnitudeText (units : Nat) : List Char :=
  let decimal := shortest units
  let digits := Nat.toDigits 10 decimal.coefficient
  layout (digits.reverse.dropWhile (· == '0')).reverse (digits.length + decimal.exponent)

def signText (negative : Bool) : String := if negative then "-" else ""

def text : Binary64 → String
  | .nan => "nan"
  | .infinite negative => signText negative ++ "inf"
  | .finite negative units =>
    signText negative ++ if units == 0 then "0.0" else String.ofList (magnitudeText units)

example : (ofDecimal false 150 (-2)).text = "1.5" := by decide +kernel
example : (ofDecimal false 1 15).text = "1000000000000000.0" := by decide +kernel
example : (ofDecimal false 1 16).text = "1e+16" := by decide +kernel
example : (ofDecimal false 1 23).text = "1e+23" := by decide +kernel
example : (ofDecimal true 1 (-4)).text = "-0.0001" := by decide +kernel
example : (ofDecimal false 15 (-6)).text = "1.5e-05" := by decide +kernel
example : (ofDecimal false 5 (-324)).text = "5e-324" := by decide +kernel
example : (ofDecimal true 0 0).text = "-0.0" := by decide +kernel

/-- Half way between two decimals of seventeen digits. -/
example : (ofDecimal false (5 ^ 25) (-25)).text = "2.9802322387695312e-08" := by decide +kernel

end GdbControl.Binary64

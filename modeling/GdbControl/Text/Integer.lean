import GdbControl.Text.Blank
import GdbControl.Text.Digit

/-!
Integers in decimal: blanks around, an optional sign, then digits of any script, where a single
underscore may stand between two digits. At most 4300 digits are read.
-/

namespace GdbControl.Integer

/-- The most digits a number may have. -/
def maxDigits : Nat := 4300

def digits? : List Char → Option (List Nat)
  | [] => none
  | c :: rest =>
    match Digit.value? c with
    | none => none
    | some digit =>
      match rest with
      | [] => some [digit]
      | '_' :: more => (digits? more).map (digit :: ·)
      | next :: more => (digits? (next :: more)).map (digit :: ·)

/-- The number that digits write, the most significant first. -/
def ofDigits (digits : List Nat) : Nat :=
  digits.foldl (fun value digit => 10 * value + digit) 0

def natural? (body : List Char) : Option Nat :=
  match digits? body with
  | none => none
  | some digits => if digits.length ≤ maxDigits then some (ofDigits digits) else none

def signed? : List Char → Option Int
  | '-' :: body => (natural? body).map fun value => -(value : Int)
  | '+' :: body => (natural? body).map Int.ofNat
  | body => (natural? body).map Int.ofNat

/-- The text without the padding at its two ends. -/
def unpadded (text : List Char) : List Char :=
  ((text.dropWhile isPadding).reverse.dropWhile isPadding).reverse

def parse? (text : String) : Option Int := signed? (unpadded text.toList)

example : signed? "-1_0".toList = some (-10) := by decide
example : signed? "1__0".toList = none := by decide
example : signed? "٣٤".toList = some 34 := by decide
example : unpadded "\u00a0 7\n".toList = ['7'] := by decide

end GdbControl.Integer

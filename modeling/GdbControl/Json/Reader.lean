import GdbControl.Json.Basic
import GdbControl.Text.Integer

/-!
Reading JSON text. The reader is strict about what a string may hold and lenient about numbers: it
also takes `NaN`, `Infinity` and `-Infinity`. Arrays and objects may be nested to a limited depth.
Each reader gives the value and the text after it.

Texts are sequences of Unicode scalar values. A numeric escape of one half of a surrogate pair alone,
which a reader over code points would keep as it is, stands for no such value, and U+FFFD is read in
its place.
-/

namespace GdbControl.Json

def isSpace (c : Char) : Bool := c == ' ' || c == '\t' || c == '\n' || c == '\r'

def skipSpace (text : List Char) : List Char := text.dropWhile isSpace

/-- The text after `word`, when it begins with it. -/
def dropWord? : List Char → List Char → Option (List Char)
  | [], text => some text
  | _ :: _, [] => none
  | c :: word, d :: text => if c = d then dropWord? word text else none

def hexValue? (c : Char) : Option Nat :=
  if '0' ≤ c && c ≤ '9' then some (c.toNat - 48)
  else if 'a' ≤ c && c ≤ 'f' then some (c.toNat - 87)
  else if 'A' ≤ c && c ≤ 'F' then some (c.toNat - 55)
  else none

def codeUnit? : List Char → Option (Nat × List Char)
  | a :: b :: c :: d :: rest => do
    let a ← hexValue? a
    let b ← hexValue? b
    let c ← hexValue? c
    let d ← hexValue? d
    some (((a * 16 + b) * 16 + c) * 16 + d, rest)
  | _ => none

def isHighHalf (unit : Nat) : Bool := 0xD800 ≤ unit && unit ≤ 0xDBFF

def isLowHalf (unit : Nat) : Bool := 0xDC00 ≤ unit && unit ≤ 0xDFFF

/-- The character that a numeric escape begins: two halves make one character, and a half that
stands alone is read as U+FFFD. -/
def escapedUnit? (text : List Char) : Option (Char × List Char) :=
  match codeUnit? text with
  | none => none
  | some (unit, rest) =>
    if isHighHalf unit then
      match rest with
      | '\\' :: 'u' :: more =>
        match codeUnit? more with
        | some (low, after) =>
          if isLowHalf low then
            some (Char.ofNat (0x10000 + (unit - 0xD800) * 0x400 + (low - 0xDC00)), after)
          else some ('\uFFFD', rest)
        | none => some ('\uFFFD', rest)
      | _ => some ('\uFFFD', rest)
    else if isLowHalf unit then some ('\uFFFD', rest)
    else some (Char.ofNat unit, rest)

/-- The character that an escape of one letter stands for. -/
def escapedLetter? : Char → Option Char
  | '"' => some '"'
  | '\\' => some '\\'
  | '/' => some '/'
  | 'b' => some '\x08'
  | 'f' => some '\x0c'
  | 'n' => some '\n'
  | 'r' => some '\r'
  | 't' => some '\t'
  | _ => none

/-- The rest of a string after its opening quote. Control characters must be escaped. The fuel is
the number of characters that may still be read. -/
def stringBody? : Nat → List Char → Option (List Char × List Char)
  | 0, _ => none
  | _ + 1, [] => none
  | fuel + 1, c :: rest =>
    if c = '"' then some ([], rest)
    else if c = '\\' then
      match rest with
      | 'u' :: more => do
        let (char, after) ← escapedUnit? more
        let (chars, last) ← stringBody? fuel after
        some (char :: chars, last)
      | letter :: more => do
        let char ← escapedLetter? letter
        let (chars, last) ← stringBody? fuel more
        some (char :: chars, last)
      | [] => none
    else if c.toNat < 0x20 then none
    else do
      let (chars, last) ← stringBody? fuel rest
      some (c :: chars, last)

def isAsciiDigit (c : Char) : Bool := '0' ≤ c && c ≤ '9'

/-- The integer part of a number: a zero, or digits that do not begin with one. -/
def integerPart? : List Char → Option (List Char × List Char)
  | '0' :: rest => some (['0'], rest)
  | c :: rest =>
    if isAsciiDigit c then some ((c :: rest).takeWhile isAsciiDigit, rest.dropWhile isAsciiDigit)
    else none
  | [] => none

/-- The digits of a fraction, empty where no point with digits follows. -/
def fractionPart : List Char → List Char × List Char
  | '.' :: rest =>
    match rest.takeWhile isAsciiDigit with
    | [] => ([], '.' :: rest)
    | digits => (digits, rest.dropWhile isAsciiDigit)
  | text => ([], text)

def digitsValue (digits : List Char) : Nat :=
  Integer.ofDigits (digits.map fun c => c.toNat - 48)

/-- The exponent of a number, where a letter with digits follows. -/
def exponentPart (text : List Char) : Option Int × List Char :=
  match text with
  | letter :: rest =>
    if letter = 'e' || letter = 'E' then
      let (negative, more) := match rest with
        | '+' :: more => (false, more)
        | '-' :: more => (true, more)
        | _ => (false, rest)
      match more.takeWhile isAsciiDigit with
      | [] => (none, text)
      | digits =>
        let size : Int := digitsValue digits
        (some (if negative then -size else size), more.dropWhile isAsciiDigit)
    else (none, text)
  | [] => (none, text)

/-- A number. One that is written without fraction and exponent is an integer. -/
def number? (text : List Char) : Option (Json × List Char) := do
  let (negative, unsigned) := match text with
    | '-' :: rest => (true, rest)
    | _ => (false, text)
  let (whole, afterWhole) ← integerPart? unsigned
  let (fraction, afterFraction) := fractionPart afterWhole
  let (exponent, rest) := exponentPart afterFraction
  if fraction.isEmpty && exponent.isNone then
    let magnitude ← Integer.natural? whole
    some (.int (if negative then -(magnitude : Int) else magnitude), rest)
  else
    let coefficient := digitsValue (whole ++ fraction)
    some (.float (.ofDecimal negative coefficient (exponent.getD 0 - fraction.length)), rest)

def words : List (String × Json) :=
  [("null", .null), ("true", .bool true), ("false", .bool false), ("NaN", .float .nan),
   ("Infinity", .float (.infinite false)), ("-Infinity", .float (.infinite true))]

def word? (text : List Char) : Option (Json × List Char) :=
  words.findSome? fun (word, value) => (dropWord? word.toList text).map (value, ·)

/-- The most arrays and objects that may lie within one another. -/
def maxNesting : Nat := 980

mutual

/-- A value that begins at the first character, with `room` for that many arrays and objects within
one another. Every recursive call has one unit of fuel less, and reads at least one character before
the next. -/
def value? : Nat → Nat → List Char → Option (Json × List Char)
  | 0, _, _ => none
  | fuel + 1, room, text =>
    match text, room with
    | '"' :: rest, _ => do
      let (chars, last) ← stringBody? (rest.length + 1) rest
      some (.string (String.ofList chars), last)
    | '[' :: _, 0 => none
    | '[' :: rest, inner + 1 =>
      match skipSpace rest with
      | ']' :: last => some (.array [], last)
      | first => do
        let (items, last) ← items? fuel inner first
        some (.array items, last)
    | '{' :: _, 0 => none
    | '{' :: rest, inner + 1 =>
      match skipSpace rest with
      | '}' :: last => some (.object [], last)
      | first => do
        let (members, last) ← members? fuel inner [] first
        some (.object members, last)
    | _, _ => word? text <|> number? text

def items? : Nat → Nat → List Char → Option (List Json × List Char)
  | 0, _, _ => none
  | fuel + 1, room, text => do
    let (item, rest) ← value? fuel room text
    match skipSpace rest with
    | ']' :: last => some ([item], last)
    | ',' :: more => do
      let (items, last) ← items? fuel room (skipSpace more)
      some (item :: items, last)
    | _ => none

/-- The members of an object up to its closing brace, laid over those already read. -/
def members? : Nat → Nat → List (String × Json) → List Char →
    Option (List (String × Json) × List Char)
  | 0, _, _, _ => none
  | fuel + 1, room, read, text =>
    match text with
    | '"' :: body => do
      let (chars, afterKey) ← stringBody? (body.length + 1) body
      match skipSpace afterKey with
      | ':' :: afterColon => do
        let (item, rest) ← value? fuel room (skipSpace afterColon)
        let members := putMember read (String.ofList chars) item
        match skipSpace rest with
        | '}' :: last => some (members, last)
        | ',' :: more => members? fuel room members (skipSpace more)
        | _ => none
      | _ => none
    | _ => none

end

def parse? (text : String) : Option Json := do
  let chars := text.toList
  let (value, rest) ← value? (chars.length + 1) maxNesting (skipSpace chars)
  if (skipSpace rest).isEmpty then some value else none

/-- Two arrays within one another need room for two. -/
example : (value? 9 1 "[[]]".toList).isNone ∧ (value? 9 2 "[[]]".toList).isSome := by decide

end GdbControl.Json

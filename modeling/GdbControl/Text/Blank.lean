/-!
Blank characters in the sense of Unicode, and the fields of a text between them.
-/

namespace GdbControl

/-- White space of Unicode, together with the four separators U+001C to U+001F. -/
def isBlank (c : Char) : Bool :=
  let code := c.toNat
  (0x09 ≤ code && code ≤ 0x0D) || (0x1C ≤ code && code ≤ 0x20) || code == 0x85 || code == 0xA0 ||
    code == 0x1680 || (0x2000 ≤ code && code ≤ 0x200A) || code == 0x2028 || code == 0x2029 ||
    code == 0x202F || code == 0x205F || code == 0x3000

/-- Blanks that may stand around a number: the separators U+001C to U+001F may not. -/
def isPadding (c : Char) : Bool :=
  isBlank c && !(0x1C ≤ c.toNat && c.toNat ≤ 0x1F)

/-- The maximal runs of characters without a blank. `word` is the run being read, last character
first. -/
def fieldsFrom (word : List Char) : List Char → List (List Char)
  | [] => if word.isEmpty then [] else [word.reverse]
  | c :: rest =>
    if isBlank c then
      if word.isEmpty then fieldsFrom [] rest else word.reverse :: fieldsFrom [] rest
    else fieldsFrom (c :: word) rest

def fields (text : String) : List String :=
  (fieldsFrom [] text.toList).map String.ofList

end GdbControl

import GdbControl.Text.Cut
import GdbControl.Text.Integer

/-!
Source positions as gdb reports them: `file:line:character:middle:address`. Only the last four
colons divide the text, so the name of the file may hold colons of its own.
-/

namespace GdbControl

structure SourceLocation where
  file : String
  line : Int
  character : Int
  /-- Whether the address lies inside the code of the line, not at its start. -/
  middle : Bool
  address : String
deriving DecidableEq, Repr

namespace SourceLocation

/-- The five parts of a position, each as it was written. -/
def parts? (text : List Char) :
    Option (List Char × List Char × List Char × List Char × List Char) := do
  let (rest, address) ← cutLast? ':' text
  let (rest, middle) ← cutLast? ':' rest
  let (rest, character) ← cutLast? ':' rest
  let (file, line) ← cutLast? ':' rest
  some (file, line, character, middle, address)

def parse? (text : String) : Option SourceLocation := do
  let (file, line, character, middle, address) ← parts? text.toList
  let line ← Integer.parse? (String.ofList line)
  let character ← Integer.parse? (String.ofList character)
  some ⟨String.ofList file, line, character, middle == "middle".toList, String.ofList address⟩

/-- The short form that names a file and a line. -/
def brief (location : SourceLocation) : String := s!"{location.file}:{location.line}"

end SourceLocation
end GdbControl

import GdbControl.Json.Reader
import GdbControl.Number.Shortest
import GdbControl.View

/-!
The configuration of the server. Its fields are taken from a JSON file as they are; what they hold
is looked at only where it is used, and what cannot be used there is a fault of that use.
-/

namespace GdbControl

namespace Json

def shape : Json → String
  | .null => "NoneType"
  | .bool _ => "bool"
  | .int _ => "int"
  | .float _ => "float"
  | .string _ => "str"
  | .array _ => "list"
  | .object _ => "dict"

/-- The items that a value holds: those of an array, the characters of a string, the keys of an
object. -/
def spread? : Json → Option (List Json)
  | .array items => some items
  | .string text => some (text.toList.map fun c => .string (String.singleton c))
  | .object members => some (members.map fun member => .string member.1)
  | _ => none

/-- The text of a value that stands where a name should. Arrays and objects have none. -/
def nameText? : Json → Option String
  | .null => some "None"
  | .bool value => some (if value then "True" else "False")
  | .int value => some (toString value)
  | .float value => some value.text
  | .string text => some text
  | .array _ | .object _ => none

end Json

structure Config where
  gdbPath : Json := .null
  workingDirectory : Json := .string "."
  environment : Json := .object []
  gdbArgs : Json := .array []
  views : Json := Json.strings standardViewIds
deriving Inhabited

namespace Config

def set? (config : Config) (key : String) (value : Json) : Option Config :=
  match key with
  | "gdb_path" => some { config with gdbPath := value }
  | "working_directory" => some { config with workingDirectory := value }
  | "environment" => some { config with environment := value }
  | "gdb_args" => some { config with gdbArgs := value }
  | "views" => some { config with views := value }
  | _ => none

/-- The configuration that an object gives. It may leave fields out, but may not have others. -/
def ofJson? : Json → Option Config
  | .object members => members.foldlM (fun config member => config.set? member.1 member.2) {}
  | _ => none

/-- The configuration in the text of a file, where there is one. What cannot be read gives the
default. -/
def ofFile (text : Option String) : Config :=
  ((text.bind Json.parse?).bind ofJson?).getD {}

def view : Json → Except Fault View
  | .string id => standardView? id
  | other =>
    match other.nameText? with
    | some text => .error (.unknownView text)
    | none => .error (.misuse (.notHashable other.shape))

/-- The views that sessions keep. All of them, where the configuration says null. -/
def catalog (config : Config) : Except Fault Catalog :=
  match config.views with
  | .null => Catalog.standard
  | names =>
    match names.spread? with
    | none => .error (.misuse (.notIterable names.shape))
    | some names => do
      let views ← names.mapM view
      views.foldlM Catalog.register Table.empty

/-- The texts of the words of a command line, counted from `position`. -/
def words (position : Nat) : List Json → Except Fault (List String)
  | [] => .ok []
  | .string text :: rest => do
    let others ← words (position + 1) rest
    .ok (text :: others)
  | other :: _ => .error (.misuse (.notText position other.shape))

/-- The command line that starts gdb with its annotations on. The program and its arguments come
last. -/
def commandLine (config : Config) (gdb : Json) (program : String) (args : List String) :
    Except Fault (List String) :=
  match config.gdbArgs.spread? with
  | none => .error (.misuse (.notSpreadable config.gdbArgs.shape))
  | some extra =>
    let debugged := if program = "" then [] else "--args" :: program :: args
    words 0 (gdb :: .string "--annotate=2" :: .string "--quiet" :: extra ++ debugged.map .string)

/-- The environment of a new gdb: that of the server, with what is configured laid over it. -/
def environmentOver (config : Config) (inherited : List (String × Json)) :
    Except Fault (List (String × Json)) :=
  match config.environment with
  | .object members => .ok (Json.overlay inherited members)
  | other => .error (.misuse (.notMapping other.shape))

end Config
end GdbControl

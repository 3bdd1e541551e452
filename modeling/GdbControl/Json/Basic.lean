import GdbControl.Number.Binary64

/-!
JSON values. Configuration is read without a schema, so its fields hold values of this type until
they are used; answers of tools are written in it.
-/

namespace GdbControl

/-- A JSON value. An object keeps the order of its members. Integers are exact, and a number with a
fraction or an exponent is the nearest floating-point number. -/
inductive Json where
  | null
  | bool (value : Bool)
  | int (value : Int)
  | float (value : Binary64)
  | string (value : String)
  | array (items : List Json)
  | object (members : List (String × Json))
deriving Inhabited, Repr

namespace Json

/-- The members of an object after `key` was given a value: a key keeps its first place and takes
its last value. -/
def putMember (members : List (String × Json)) (key : String) (value : Json) :
    List (String × Json) :=
  if members.any (·.1 == key) then
    members.map fun member => if member.1 == key then (key, value) else member
  else members ++ [(key, value)]

/-- Members laid over others, one after another. -/
def overlay (below above : List (String × Json)) : List (String × Json) :=
  above.foldl (fun members member => putMember members member.1 member.2) below

/-- Whether a value counts as present: null, false, zero and all that is empty do not. -/
def isPresent : Json → Bool
  | .null => false
  | .bool value => value
  | .int value => value != 0
  | .float value => !value.isZero
  | .string value => value != ""
  | .array items => !items.isEmpty
  | .object members => !members.isEmpty

def ofOptional (encode : α → Json) : Option α → Json
  | none => .null
  | some value => encode value

def strings (values : List String) : Json := .array (values.map .string)

end Json
end GdbControl

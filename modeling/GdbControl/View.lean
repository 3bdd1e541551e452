import GdbControl.Command
import GdbControl.Table

/-!
Views: what is known of a debugged program that is shown in a buffer and fetched anew when gdb says
that it changed.
-/

namespace GdbControl

/-- When anyone looks at a view. -/
inductive Demand where
  | whileOpen
  | fixed (demanded : Bool)
deriving DecidableEq, Repr

structure View where
  id : String
  demand : Demand
  /-- The command whose output is the text of the view. -/
  command : String
  handler : Handler

/-- A view that is kept in a buffer of its own name. -/
def View.buffered (id command : String) : View := ⟨id, .whileOpen, command, .refresh id⟩

/-- The views of a session, in the order of their registration. -/
abbrev Catalog := Table View

/-- Commands that gdb does not keep in the history of the user. -/
def serverCommand (text : String) : String := "server " ++ text

def standardViews : List (String × String) :=
  [("breakpoints", serverCommand "info breakpoints"), ("stack", serverCommand "backtrace"),
   ("registers", serverCommand "info registers"), ("locals", serverCommand "info locals"),
   ("disassembly", serverCommand "disassemble")]

def standardViewIds : List String := standardViews.map Prod.fst

/-- The views that an annotation about breakpoints makes stale. -/
def breakpointViews : List String := ["breakpoints"]

/-- The views that an annotation about frames makes stale. -/
def frameViews : List String := ["stack", "locals", "registers", "disassembly"]

def standardView? (id : String) : Except Fault View :=
  match standardViews.lookup id with
  | some command => .ok (.buffered id command)
  | none => .error (.unknownView id)

namespace Catalog

def register (catalog : Catalog) (view : View) : Except Fault Catalog :=
  if catalog.contains view.id then .error (.viewTaken view.id)
  else .ok (catalog.insert view.id view)

def find (catalog : Catalog) (id : String) : Except Fault View :=
  match catalog.get? id with
  | some view => .ok view
  | none => .error (.unknownView id)

/-- The catalog of standard views. An identifier that is not standard is found before one that is
given twice. -/
def ofIds (ids : List String) : Except Fault Catalog := do
  let views ← ids.mapM standardView?
  views.foldlM register Table.empty

def standard : Except Fault Catalog := ofIds standardViewIds

end Catalog
end GdbControl

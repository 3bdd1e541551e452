import GdbControl.Table

/-!
What a session shows: the transcript, the output of the program, the open buffers of its views and
the faults of the protocol. The session only ever adds to it through the functions below.
-/

namespace GdbControl

structure Display where
  transcript : String := ""
  programOutput : String := ""
  buffers : Table String := Table.empty
  refreshCounts : Table Nat := Table.empty
  diagnostics : List String := []
  /-- Whether gdb has been idle at its prompt, or is gone, since this was last cleared. -/
  promptReady : Bool := false
deriving Inhabited

namespace Display

def isOpen (display : Display) (view : String) : Bool := display.buffers.contains view

/-- Opens an empty buffer. One that is open stays as it is. -/
def addBuffer (display : Display) (view : String) : Display :=
  { display with buffers := display.buffers.insertIfNew view "" }

def removeBuffer (display : Display) (view : String) : Display :=
  { display with buffers := display.buffers.erase view }

/-- Gives an open buffer a new text. The buffer may have been closed while its refresh was under
way, and is then not opened again. -/
def setBuffer (display : Display) (view text : String) : Display :=
  { display with buffers := display.buffers.modify view fun _ => text }

def countRefresh (display : Display) (view : String) : Display :=
  let count := (display.refreshCounts.get? view).getD 0
  { display with refreshCounts := display.refreshCounts.insert view (count + 1) }

def appendTranscript (display : Display) (text : String) : Display :=
  { display with transcript := display.transcript ++ text }

def appendProgramOutput (display : Display) (text : String) : Display :=
  { display with programOutput := display.programOutput ++ text }

def report (display : Display) (message : String) : Display :=
  { display with diagnostics := display.diagnostics ++ [message] }

def markReady (display : Display) : Display := { display with promptReady := true }

def clearReady (display : Display) : Display := { display with promptReady := false }

end Display
end GdbControl

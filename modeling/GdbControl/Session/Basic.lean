import GdbControl.Annotation
import GdbControl.Display
import GdbControl.Location
import GdbControl.Subprocess
import GdbControl.View

/-!
The state of a session with one gdb process, the record of what it did, and the steps from which all
of its operations are made. An operation that fails keeps what it did before it failed.
-/

namespace GdbControl

/-- What a session does, in the order in which it does it. -/
inductive Event where
  /-- A read of gdb's output is taken in. -/
  | arrived (bytes : Bytes)
  /-- A command is put into its queue, or sent past it. -/
  | accepted (tier : Tier) (command : Command)
  /-- A command becomes the one in flight. It comes from a queue, or past it, unless it was sent
  on its own. -/
  | sent (tier : Option Tier) (command : Command)
  /-- A line reaches gdb. -/
  | wrote (line : String)
  /-- An annotation begins to be acted upon. -/
  | annotated (marker : Marker)
  /-- Plain text reaches the sink. -/
  | emitted (sink : Sink) (text : String)
  /-- The output of a command is handed to its handler. -/
  | completed (command : Command) (output : String)
  | replaced (view text : String)
  | refreshed (view : String)
  /-- gdb is idle at its prompt. -/
  | idled
  | reported (message : String)

structure Session where
  views : Catalog
  process : Subprocess
  display : Display := {}
  /-- Output that has arrived and has not been passed on: it may begin a marker line. -/
  held : Bytes := []
  /-- Whether the held output begins inside a line. -/
  midLine : Bool := false
  urgent : List Command := []
  idle : List Command := []
  /-- Whether gdb waits for a line. -/
  prompting : Bool := false
  /-- Whether the last prompt was a question. -/
  questioned : Bool := false
  sink : Sink := .console
  /-- The command that was sent last, until gdb is at its prompt again. -/
  inFlight : Option Command := none
  /-- Whether the output of the command in flight is complete. -/
  completed : Bool := false
  /-- The views whose refresh is outstanding, each once. -/
  awaiting : List String := []
  /-- The output of the session's command in flight. -/
  gathered : String := ""
  running : Bool := false
  location : Option SourceLocation := none
  frameAddress : Option String := none
  exitStatus : Option Int := none
  lastSignal : Option String := none
  journal : List Event := []

/-- An operation of a session: it changes the state, and may fail. -/
abbrev Engine := EStateM Fault Session

/-- What is done with a completed command's handler and output. -/
abbrev Completion := Handler → String → Engine Unit

namespace Session

def isClosed (session : Session) : Bool := session.sink = .closed

def log (session : Session) (event : Event) : Session :=
  { session with journal := session.journal ++ [event] }

/-- Drops all work that is queued or under way and closes the session. No handler is called. -/
def close (session : Session) : Session :=
  if session.isClosed then session
  else { session with
    urgent := []
    idle := []
    awaiting := []
    gathered := ""
    inFlight := none
    prompting := false
    questioned := false
    held := []
    sink := .closed }

def await (session : Session) (view : String) : Session :=
  { session with awaiting := session.awaiting ++ [view] }

def settle (session : Session) (view : String) : Session :=
  { session with awaiting := session.awaiting.filter (· != view) }

/-- Forgets the command in flight. If it was to refresh a view and was never completed, the view
waits no longer. -/
def release (session : Session) : Session :=
  let freed := match session.inFlight.bind Command.view? with
    | some view => if session.completed then session else session.settle view
    | none => session
  { freed with inFlight := none }

/-- Puts a command in flight. The output of the user's commands goes to the console; that of the
session's own is gathered anew once gdb begins to answer. -/
def launch (session : Session) (command : Command) : Session :=
  let begun := { session with inFlight := some command, completed := false, prompting := false }
  match command.handler? with
  | none => { begun with sink := .console }
  | some _ => { begun with gathered := "", sink := .beforeOutput }

def isAwaiting (session : Session) (view : String) : Bool := session.awaiting.contains view

/-- Whether anyone looks at a view, who would want it refreshed. -/
def demands (session : Session) (view : View) : Bool :=
  match view.demand with
  | .whileOpen => session.display.isOpen view.id
  | .fixed demanded => demanded

theorem isClosed_close (session : Session) : session.close.isClosed = true := by
  unfold close
  split
  · next closed => exact closed
  · simp [isClosed]

/-- A session is closed once. -/
theorem close_of_isClosed {session : Session} (closed : session.isClosed = true) :
    session.close = session := by
  simp [close, closed]

end Session

namespace Engine

def record (event : Event) : Engine Unit := modify (·.log event)

def requireOpen : Engine Unit := do
  if (← get).isClosed then throw .tornDown

def lift (result : Except Fault α) : Engine α :=
  match result with
  | .ok value => pure value
  | .error fault => throw fault

def onDisplay (change : Display → Display) : Engine Unit :=
  modify fun session => { session with display := change session.display }

def report (message : String) : Engine Unit := do
  onDisplay (·.report message)
  record (.reported message)

def emit (text : String) : Engine Unit := do
  if text != "" then
    let sink := (← get).sink
    record (.emitted sink text)
    match sink with
    | .console => onDisplay (·.appendTranscript text)
    | .program => onDisplay (·.appendProgramOutput text)
    | .gathering => modify fun session => { session with gathered := session.gathered ++ text }
    | .beforeOutput | .afterOutput | .closed => pure ()

end Engine
end GdbControl

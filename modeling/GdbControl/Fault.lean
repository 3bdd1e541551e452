/-!
What can go wrong, by cause, and the text that says so.
-/

namespace GdbControl

/-- A configured value of the wrong shape. `kind` names the shape that was found. -/
inductive Misuse where
  | notText (position : Nat) (kind : String)
  | notSpreadable (kind : String)
  | notMapping (kind : String)
  | notIterable (kind : String)
  | notHashable (kind : String)
deriving DecidableEq, Repr

def Misuse.message : Misuse → String
  | .notText position kind => s!"sequence item {position}: expected str instance, {kind} found"
  | .notSpreadable kind => s!"Value after * must be an iterable, not {kind}"
  | .notMapping kind => s!"'{kind}' object is not a mapping"
  | .notIterable kind => s!"'{kind}' object is not iterable"
  | .notHashable kind => s!"unhashable type: '{kind}'"

inductive Fault where
  /-- A request that the debugger refuses. -/
  | refused (reason : String)
  | sessionNotFound (session : String)
  | launch (reason : String)
  | outOfPhase (tag sink : String)
  | queueEmpty (queue : String)
  | tornDown
  | unknownView (view : String)
  | viewTaken (view : String)
  | brokenPipe
  | system (reason : String)
  | internal (reason : String)
  | misuse (cause : Misuse)
  | nesting
deriving DecidableEq, Repr

namespace Fault

def message : Fault → String
  | .refused reason => reason
  | .sessionNotFound session => s!"Session not found: {session}"
  | .launch reason => s!"Launch failed: {reason}"
  | .outOfPhase tag sink => s!"Unexpected annotation '{tag}' (sink was {sink})"
  | .queueEmpty queue => s!"Command queue underflow: {queue}"
  | .tornDown => "Session has been torn down"
  | .unknownView view => s!"Unknown view: {view}"
  | .viewTaken view => s!"View already registered: {view}"
  | .brokenPipe => "broken pipe"
  | .system reason => reason
  | .internal reason => reason
  | .misuse cause => cause.message
  | .nesting => "maximum recursion depth exceeded"

/-- The name under which an answer reports a fault. Only faults of debugging are answered; any
other one ends the call that met it. -/
def label? : Fault → Option String
  | .refused _ => some "DebuggerError"
  | .sessionNotFound _ => some "SessionNotFoundError"
  | .launch _ => some "LaunchError"
  | .outOfPhase _ _ => some "ProtocolError"
  | .queueEmpty _ => some "QueueUnderflowError"
  | .tornDown => some "SessionTornDownError"
  | .unknownView _ => some "UnknownViewError"
  | .viewTaken _ | .brokenPipe | .system _ | .internal _ | .misuse _ | .nesting => none

/-- The reason given when no gdb is configured and none is on the path. -/
def gdbMissing : String :=
  "gdb not found. Please install gdb or specify gdb_path in configuration"

end Fault
end GdbControl

import GdbControl.Client.Launch
import GdbControl.Client.Stop
import GdbControl.Tool.Reply

/-!
The tools: what a caller can ask for, and how each request is carried out. A fault of debugging
becomes an answer; any other fault ends the call.
-/

namespace GdbControl

structure Window where
  limit : Option Int := none
  offset : Option Int := none
deriving DecidableEq, Repr

/-- A request, with the arguments that were given. Times are in milliseconds. -/
inductive ToolCall where
  | startDebug (program : Option String) (args : Option (List String))
      (rootDirectory : Option String)
  | stopDebug (session : String)
  | listSessions
  /-- Without a given limit the wait ends after the time for a step; a limit of none is no limit. -/
  | sendCommand (session command : String) (wait : Option Bool) (limit : Option (Option Int))
      (window : Window)
  | run (session : String) (window : Window)
  | continueExecution (session : String) (window : Window)
  | step (session : String) (count : Option Int)
  | next (session : String) (count : Option Int)
  | finish (session : String)
  | setBreakpoint (session location : String) (condition : Option String) (temporary : Bool)
  | removeBreakpoint (session : String) (breakpoint : Int)
  | listBreakpoints (session : String)
  | openView (session view : String)
  | closeView (session view : String)
  | getView (session view : String) (window : Window)
  | listViews (session : String)
  | readTranscript (session : String) (window : Window)
  | readInferiorOutput (session : String) (window : Window)
  | sessionDiagnostics (session : String)
deriving DecidableEq, Repr

namespace ToolCall

def runLimit : Int := 30000

def stepLimit : Int := 5000

def finishLimit : Int := 10000

def name : ToolCall → String
  | .startDebug _ _ _ => "start_debug"
  | .stopDebug _ => "stop_debug"
  | .listSessions => "list_sessions"
  | .sendCommand _ _ _ _ _ => "send_command"
  | .run _ _ => "run"
  | .continueExecution _ _ => "continue_execution"
  | .step _ _ => "step"
  | .next _ _ => "next"
  | .finish _ => "finish"
  | .setBreakpoint _ _ _ _ => "set_breakpoint"
  | .removeBreakpoint _ _ => "remove_breakpoint"
  | .listBreakpoints _ => "list_breakpoints"
  | .openView _ _ => "open_view"
  | .closeView _ _ => "close_view"
  | .getView _ _ _ => "get_view"
  | .listViews _ => "list_views"
  | .readTranscript _ _ => "read_transcript"
  | .readInferiorOutput _ _ => "read_inferior_output"
  | .sessionDiagnostics _ => "session_diagnostics"

def names : List String :=
  ["close_view", "continue_execution", "finish", "get_view", "list_breakpoints", "list_sessions",
   "list_views", "next", "open_view", "read_inferior_output", "read_transcript",
   "remove_breakpoint", "run", "send_command", "session_diagnostics", "set_breakpoint",
   "start_debug", "step", "stop_debug"]

/-- The view that holds the breakpoints. -/
def breakpointView : String := "breakpoints"

def breakCommand (location : String) (condition : Option String) (temporary : Bool) : String :=
  let verb := if temporary then "tbreak" else "break"
  let line := s!"{verb} {location}"
  match condition.filter (· != "") with
  | none => line
  | some condition => s!"{line} if {condition}"

end ToolCall

namespace Control

/-- Answers with a failure where an operation meets a fault of debugging. -/
def answering (operation : Control Reply) : Control Reply :=
  tryCatch operation fun fault =>
    if fault.label?.isSome then pure (.failed (.fault fault false)) else throw fault

/-- A command whose output is shown one page at a time. -/
def sendPaged (session command : String) (wait : Bool) (limit : Option Int) (window : Window) :
    Control Reply := answering do
  let result ← runCommand session command wait limit
  match result.output with
  | none => pure (.command result)
  | some output => pure (.pagedCommand result.status (Page.of output window.limit window.offset))

/-- Starts a session, in another directory if one is given. Whatever goes wrong becomes an answer. -/
def startDebug (program : Option String) (args : Option (List String))
    (rootDirectory : Option String) : Control Reply := do
  let create := attach (program.getD "") (args.getD [])
  let placed := match rootDirectory.filter (· != "") with
    | none => create
    | some directory => inDirectory directory create
  tryCatch (Reply.started <$> placed) fun fault => pure (.failed (.plain fault.message))

def stopDebug (session : String) : Control Reply := do
  if (← get).sessions.contains session then
    stopInBackground session
    pure .stopped
  else pure (.failed (.noSession session))

def listSessions : Control Reply := do
  let summaries := (← get).sessions.entries.map fun (id, attachment) =>
    let session := attachment.session
    ⟨id, attachment.program, !session.isClosed, session.running, session.prompting⟩
  pure (.sessions summaries)

/-- The text of the breakpoints' view, which is opened if it is not open. -/
def listBreakpoints (session : String) : Control Reply := answering do
  let attachment ← require session true
  if !attachment.session.display.isOpen ToolCall.breakpointView then
    let _ ← openView session ToolCall.breakpointView
    let _ ← awaitPrompt session (some ToolCall.stepLimit)
  let text ← viewText session ToolCall.breakpointView
  pure (.breakpoints (text.getD "")
    ((← find session).session.isAwaiting ToolCall.breakpointView))

def showView (session view : String) (window : Window) : Control Reply := answering do
  match ← viewText session view with
  | none => pure (.failed (.viewNotOpen view))
  | some text =>
    let found := (← require session false).session
    pure (.viewPage view (Page.of text window.limit window.offset) (found.isAwaiting view)
      ((found.display.refreshCounts.get? view).getD 0))

def listViews (session : String) : Control Reply := answering do
  let found := (← require session false).session
  let summaries := found.views.values.map fun view =>
    ⟨view.id, view.command, found.display.isOpen view.id, found.isAwaiting view.id⟩
  pure (.views summaries)

def readPage (session : String) (text : Display → String) (window : Window) : Control Reply :=
  answering do
    let found := (← require session false).session
    pure (.textPage (Page.of (text found.display) window.limit window.offset))

def diagnose (session : String) : Control Reply := answering do
  let attachment ← require session false
  let found := attachment.session
  pure (.diagnostics {
    session := session
    program := attachment.program
    args := attachment.args
    pid := found.process.pid
    exitCode := found.process.exitCode
    engine := found.overview
    reported := found.display.diagnostics
    openViews := sortedTexts found.display.buffers.keys })

def perform : ToolCall → Control Reply
  | .startDebug program args rootDirectory => startDebug program args rootDirectory
  | .stopDebug session => stopDebug session
  | .listSessions => listSessions
  | .sendCommand session command wait limit window =>
    sendPaged session command (wait.getD true) (limit.getD (some ToolCall.stepLimit)) window
  | .run session window => sendPaged session "run" true (some ToolCall.runLimit) window
  | .continueExecution session window =>
    sendPaged session "continue" true (some ToolCall.runLimit) window
  | .step session count =>
    sendPaged session s!"step {count.getD 1}" true (some ToolCall.stepLimit) {}
  | .next session count =>
    sendPaged session s!"next {count.getD 1}" true (some ToolCall.stepLimit) {}
  | .finish session => sendPaged session "finish" true (some ToolCall.finishLimit) {}
  | .setBreakpoint session location condition temporary => answering do
    let command := ToolCall.breakCommand location condition temporary
    pure (.command (← runCommand session command true none))
  | .removeBreakpoint session breakpoint => answering do
    pure (.command (← runCommand session s!"delete {breakpoint}" true none))
  | .listBreakpoints session => listBreakpoints session
  | .openView session view => answering do
    pure (.viewOpened view (← openView session view))
  | .closeView session view => answering do
    if ← closeView session view then pure (.viewClosed view)
    else pure (.failed (.viewNotOpen view))
  | .getView session view window => showView session view window
  | .listViews session => listViews session
  | .readTranscript session window => readPage session (·.transcript) window
  | .readInferiorOutput session window => readPage session (·.programOutput) window
  | .sessionDiagnostics session => diagnose session

end Control
end GdbControl

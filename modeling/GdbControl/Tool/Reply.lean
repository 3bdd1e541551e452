import GdbControl.Client.Exchange
import GdbControl.Text.Page

/-!
The answers of tools, and their form in JSON.
-/

namespace GdbControl

/-- Why a tool did not do what it was asked to do. -/
inductive Failure where
  | plain (message : String)
  | noSession (session : String)
  | viewNotOpen (view : String)
  /-- A fault of debugging. `retryable` says that the same call may succeed later. -/
  | fault (cause : Fault) (retryable : Bool)
deriving DecidableEq, Repr

namespace Failure

def message : Failure → String
  | .plain message => message
  | .noSession _ => "Session not found"
  | .viewNotOpen view => s!"View not open: {view}"
  | .fault cause _ => cause.message

/-- What the caller of a tool may do about a fault. -/
def advice : Fault → List (String × Json)
  | .tornDown =>
    [("session_alive", .bool false),
     ("hint", .string "gdb has exited, use start_debug to begin a new session")]
  | .sessionNotFound session =>
    [("session_id", .string session),
     ("hint", .string "Use list_sessions to see active sessions")]
  | .unknownView view =>
    [("view", .string view),
     ("hint", .string "Use list_views to see the views this session keeps")]
  | .launch _ =>
    [("hint", .string "Set gdb_path in gdbannotateconfig.json if gdb is not on PATH")]
  | _ => []

def details : Failure → List (String × Json)
  | .plain _ => []
  | .noSession session => [("session_id", .string session)]
  | .viewNotOpen view => [("view", .string view)]
  | .fault cause retryable =>
    [("error_type", Json.ofOptional .string cause.label?)] ++
      (if retryable then [("retryable", .bool true)] else []) ++ advice cause

def toJson (failure : Failure) : Json :=
  .object ([("status", .string "error"), ("error", .string failure.message)] ++ failure.details)

end Failure

/-- What a list of sessions says of each. -/
structure SessionSummary where
  id : String
  program : String
  alive : Bool
  running : Bool
  prompting : Bool
deriving DecidableEq, Repr

/-- What a list of views says of each. -/
structure ViewSummary where
  id : String
  command : String
  isOpen : Bool
  isAwaiting : Bool
deriving DecidableEq, Repr

/-- The state of a session, as far as a report shows it. -/
structure Overview where
  sink : Sink
  prompting : Bool
  questioned : Bool
  running : Bool
  inFlight : Option String
  urgent : List String
  idle : List String
  awaiting : List String
  location : Option SourceLocation
  frameAddress : Option String
  exitStatus : Option Int
  lastSignal : Option String
  held : Nat
deriving DecidableEq, Repr

def sortedTexts (texts : List String) : List String := texts.mergeSort fun left right => left ≤ right

def Session.overview (session : Session) : Overview where
  sink := session.sink
  prompting := session.prompting
  questioned := session.questioned
  running := session.running
  inFlight := session.inFlight.map Command.text
  urgent := session.urgent.map Command.text
  idle := session.idle.map Command.text
  awaiting := sortedTexts session.awaiting
  location := session.location
  frameAddress := session.frameAddress
  exitStatus := session.exitStatus
  lastSignal := session.lastSignal
  held := session.held.length

/-- What is known of a session and its process. -/
structure Diagnostics where
  session : String
  program : String
  args : List String
  pid : Int
  exitCode : Option Int
  engine : Overview
  reported : List String
  openViews : List String
deriving DecidableEq, Repr

/-- The answer of a tool that did what it was asked to do, or the reason why it did not. -/
inductive Reply where
  | started (session : String)
  | stopped
  | sessions (summaries : List SessionSummary)
  | command (result : CommandResult)
  /-- A command whose output is shown one page at a time. -/
  | pagedCommand (status : CommandStatus) (page : Page)
  | breakpoints (text : String) (awaiting : Bool)
  | viewOpened (view : String) (refreshAsked : Bool)
  | viewClosed (view : String)
  | viewPage (view : String) (page : Page) (awaiting : Bool) (refreshCount : Nat)
  | views (summaries : List ViewSummary)
  | textPage (page : Page)
  | diagnostics (report : Diagnostics)
  | failed (failure : Failure)
deriving DecidableEq, Repr

namespace Reply

def serverName : String := "gdb-annotate"

def pageBounds (page : Page) : List (String × Json) :=
  [("total_chars", .int page.total), ("offset", .int page.offset),
   ("limit", Json.ofOptional .int page.limit), ("has_more", .bool page.hasMore)]

def pageMembers (page : Page) : List (String × Json) :=
  ("content", .string page.content) :: pageBounds page

def summaryJson (summary : SessionSummary) : Json :=
  .object [("session_id", .string summary.id), ("program", .string summary.program),
    ("alive", .bool summary.alive), ("running", .bool summary.running),
    ("prompting", .bool summary.prompting), ("debugger", .string serverName)]

def viewJson (summary : ViewSummary) : Json :=
  .object [("view", .string summary.id), ("command", .string summary.command),
    ("open", .bool summary.isOpen), ("refresh_pending", .bool summary.isAwaiting)]

def overviewJson (overview : Overview) : Json :=
  .object [("sink", .string overview.sink.name), ("prompting", .bool overview.prompting),
    ("at_subprompt", .bool overview.questioned), ("running", .bool overview.running),
    ("current_command", Json.ofOptional .string overview.inFlight),
    ("input_queue", Json.strings overview.urgent), ("idle_queue", Json.strings overview.idle),
    ("pending_triggers", Json.strings overview.awaiting),
    ("location", Json.ofOptional (.string ·.brief) overview.location),
    ("frame_address", Json.ofOptional .string overview.frameAddress),
    ("exit_status", Json.ofOptional .int overview.exitStatus),
    ("last_signal", Json.ofOptional .string overview.lastSignal),
    ("burst_bytes", .int overview.held)]

def diagnosticsJson (report : Diagnostics) : Json :=
  .object [("session_id", .string report.session), ("program", .string report.program),
    ("args", Json.strings report.args), ("pid", .int report.pid),
    ("returncode", Json.ofOptional .int report.exitCode),
    ("engine", overviewJson report.engine), ("protocol_errors", Json.strings report.reported),
    ("open_views", Json.strings report.openViews)]

def commandJson (result : CommandResult) : Json :=
  .object <| ("status", .string result.status.name) ::
    match result.output with
    | none => []
    | some output => [("output", .string output)]

def toJson : Reply → Json
  | .started session =>
    .object [("session_id", .string session), ("status", .string "started"),
      ("debugger", .string serverName)]
  | .stopped => .object [("status", .string "stopped")]
  | .sessions summaries => .object [("sessions", .array (summaries.map summaryJson))]
  | .command result => commandJson result
  | .pagedCommand status page =>
    .object [("status", .string status.name), ("output", .string page.content),
      ("pagination", .object (pageBounds page))]
  | .breakpoints text awaiting =>
    .object [("breakpoints", .string text), ("pending", .bool awaiting)]
  | .viewOpened view refreshAsked =>
    .object [("status", .string "opened"), ("view", .string view),
      ("refresh_queued", .bool refreshAsked)]
  | .viewClosed view => .object [("status", .string "closed"), ("view", .string view)]
  | .viewPage view page awaiting refreshCount =>
    .object (pageMembers page ++ [("view", .string view), ("refresh_pending", .bool awaiting),
      ("refresh_count", .int refreshCount)])
  | .views summaries => .object [("views", .array (summaries.map viewJson))]
  | .textPage page => .object (pageMembers page)
  | .diagnostics report => diagnosticsJson report
  | .failed failure => failure.toJson

end Reply
end GdbControl

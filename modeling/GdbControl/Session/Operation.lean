import GdbControl.Session.Intake

/-!
The operations of a session, and the handlers that are made of them. A handler may perform
operations that complete further commands, so handlers are called in one another; the depth to which
this may go is limited.
-/

namespace GdbControl

inductive Answer where
  | nothing
  | flag (value : Bool)
  | text (value : String)
  | ids (values : List String)
deriving DecidableEq, Repr

namespace Engine

def onSubprocess (change : Subprocess → Subprocess) : Engine Unit :=
  modify fun session => { session with process := change session.process }

def registerView (view : View) : Engine Unit := do
  let views ← lift ((← get).views.register view)
  modify fun session => { session with views := views }

/-- Performs an operation; `complete` is what becomes of the output of commands on the way. -/
def perform (complete : Completion) : Operation → Engine Answer
  | .ingest pieces => do pieces.forM (ingest complete); pure .nothing
  | .flush => .flag <$> flush
  | .enqueue tier command => .flag <$> enqueue tier command
  | .send command => do send none command; pure .nothing
  | .answerPrompt => do answerPrompt; pure .nothing
  | .answerQuestion => do answerQuestion; pure .nothing
  | .takeFirst tier => do pure (.text (← takeFirst tier).text)
  | .react marker => do react complete marker; pure .nothing
  | .emit text => do emit text; pure .nothing
  | .requestRefresh view => .flag <$> requestRefresh view
  | .requestRefreshes views => .ids <$> requestRefreshes views
  | .addBuffer view => do onDisplay (·.addBuffer view); pure .nothing
  | .removeBuffer view => do onDisplay (·.removeBuffer view); pure .nothing
  | .register view command => do registerView (.buffered view command); pure .nothing
  | .registerHandled view command demanded handler => do
    registerView ⟨view, .fixed demanded, command, handler⟩
    pure .nothing
  | .setSink sink => do modify fun session => { session with sink := sink }; pure .nothing
  | .setPrompting prompting => do
    modify fun session => { session with prompting := prompting }
    pure .nothing
  | .setPipe broken => do
    onSubprocess fun process => { process with pipeBroken := broken }
    pure .nothing
  | .requireOpen => do requireOpen; pure .nothing
  | .close => do modify Session.close; pure .nothing

/-- Gives the output of a command to its handler. `depth` is how many routines may still be called
in one another. -/
def complete : Nat → Completion
  | _, .discard, _ => pure ()
  | _, .refresh view, output => finishRefresh view output
  | 0, .routine _ _ _, _ => throw .nesting
  | depth + 1, .routine _ body fault, _ => do
    body.forM fun operation => discard (perform (complete depth) operation)
    match fault with
    | none => pure ()
    | some fault => throw fault

/-- How deep handlers may call one another. -/
def maxNesting : Nat := 100

/-- What becomes of the output of every command of a session. -/
def handle : Completion := complete maxNesting

end Engine

/-- Performs an operation: its answer or fault, and the session after it. -/
def Session.perform (session : Session) (operation : Operation) :
    EStateM.Result Fault Session Answer :=
  (Engine.perform Engine.handle operation).run session

/-- A session with a gdb process that has just been started. -/
def Session.start (process : Subprocess) (views : Catalog) : Session :=
  { views := views, process := process }

end GdbControl

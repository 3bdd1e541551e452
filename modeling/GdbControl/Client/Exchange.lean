import GdbControl.Client.Basic

/-!
Commands of the user, views, and waiting for the prompt.
-/

namespace GdbControl

inductive CommandStatus where
  | sent
  | queued
  | completed
  | timedOut
  | exited
deriving DecidableEq, Repr

def CommandStatus.name : CommandStatus → String
  | .sent => "sent"
  | .queued => "queued"
  | .completed => "completed"
  | .timedOut => "timeout"
  | .exited => "exited"

/-- The result of a command. Output is there only if its end was waited for. -/
structure CommandResult where
  status : CommandStatus
  output : Option String
deriving DecidableEq, Repr

namespace Engine

/-- Makes ready to wait for the prompt, and enqueues a command of the user. -/
def submit (command : String) : Engine Bool := do
  onDisplay (·.clearReady)
  enqueue .urgent (.typed command)

/-- Opens the buffer of a view and asks for its first refresh. -/
def openView (view : String) : Engine Bool := do
  let _ ← lift ((← get).views.find view)
  onDisplay fun display => (display.addBuffer view).clearReady
  requestRefresh view

end Engine

namespace Control

/-- Takes in, one after another, what comes from a session's gdb. -/
def deliver (id : String) (deliveries : List Delivery) : Control Unit := do
  let _ ← find id
  deliveries.forM fun delivery => onSession id (Engine.receive delivery)

/-- Waits for the prompt of a session, and says whether it came. -/
def awaitPrompt (id : String) (limit : Option Int) : Control Bool := do
  record (.awaitedPrompt id limit)
  let deliveries := (← get).arriving
  modify fun client => { client with arriving := [] }
  deliver id deliveries
  pure (← find id).session.display.promptReady

/-- Gives gdb a command of the user. With `wait` its end is waited for, and the result holds what
the transcript grew by. -/
def runCommand (id command : String) (wait : Bool) (limit : Option Int) :
    Control CommandResult := do
  let attachment ← require id true
  let before := attachment.session.display.transcript.length
  let sent ← onSession id (Engine.submit command)
  if !wait then pure ⟨if sent then .sent else .queued, none⟩
  else
    let ready ← awaitPrompt id limit
    let session := (← find id).session
    let output := String.ofList (session.display.transcript.toList.drop before)
    let status :=
      if session.isClosed then .exited else if ready then .completed else .timedOut
    pure ⟨status, some output⟩

def openView (id view : String) : Control Bool := do
  let _ ← require id true
  onSession id (Engine.openView view)

def viewText (id view : String) : Control (Option String) := do
  pure ((← require id false).session.display.buffers.get? view)

def closeView (id view : String) : Control Bool := do
  let attachment ← require id false
  onSession id (Engine.onDisplay (·.removeBuffer view))
  pure (attachment.session.display.isOpen view)

end Control
end GdbControl

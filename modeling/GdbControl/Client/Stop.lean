import GdbControl.Client.Basic

/-!
Stopping sessions: gdb is asked to quit, then terminated, then killed.
-/

namespace GdbControl.Control

def endLimit : Nat := 2000

def joinLimit : Nat := 500

/-- Waits for the end of a session's process, and says whether it came. -/
def awaitEnd (id : String) : Control Bool := do
  let attachment ← find id
  let (outcome, process) := attachment.session.process.wait
  onSession id (Engine.onSubprocess fun _ => process)
  record (.waitedForEnd id endLimit outcome)
  pure (outcome == .ended)

def askToQuit (id : String) : Control Bool := do
  let heard := !(← find id).session.process.pipeBroken
  record (.askedToQuit id heard)
  if heard then awaitEnd id else pure false

def terminate (id : String) : Control Bool := do
  record (.terminated id)
  if (← find id).session.process.terminateFails then pure false
  else awaitEnd id

def kill (id : String) : Control Unit := do
  record (.killed id)
  if (← find id).session.process.killFails then throw (.system "kill failed")

/-- Ends the process of a session, by the gentlest means that works. -/
def endProcess (id : String) : Control Unit := do
  if (← find id).session.process.exitCode.isNone then
    if !(← askToQuit id) then
      if !(← terminate id) then kill id

/-- Closes a session, and then ends its process. -/
def windUp (id : String) : Control Unit := do
  onSession id (modify Session.close)
  endProcess id

/-- Winds up a session and forgets it. A session whose process cannot be killed is not forgotten. -/
def stop (id : String) : Control Unit := do
  if (← get).sessions.contains id then
    windUp id
    modify (·.forget id)

/-- Stops a session in the background. A fault stays there. -/
def stopInBackground (id : String) : Control Unit := do
  tryCatch (stop id) fun fault => record (.stopFailed id fault)
  record (.joined id joinLimit)

/-- Stops all sessions in the order in which they were started, whatever faults that meets. -/
def stopAll : Control Unit := do
  (← get).sessions.keys.forM fun id => tryCatch (stop id) fun _ => pure ()

end GdbControl.Control

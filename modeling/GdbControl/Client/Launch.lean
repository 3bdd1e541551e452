import GdbControl.Client.Basic

/-!
Starting gdb and attaching a session to it.
-/

namespace GdbControl

/-- Sent before all else, so that gdb never waits for the reader of a page and never asks whether it
was meant. -/
def preamble : List String :=
  [serverCommand "set height 0", serverCommand "set width 0", serverCommand "set confirm off"]

def Engine.enqueuePreamble : Engine Unit :=
  preamble.forM fun text => discard (enqueue .urgent (.mk text (some .discard) none))

namespace Control

/-- The gdb to start: the configured one, or else the one on the search path. -/
def locateGdb : Control Json := do
  let client ← get
  if client.config.gdbPath.isPresent then pure client.config.gdbPath
  else
    match client.gdbOnPath with
    | some path => if path = "" then throw (.launch Fault.gdbMissing) else pure (.string path)
    | none => throw (.launch Fault.gdbMissing)

def startGdb (program : String) (args : List String) : Control Subprocess := do
  let gdb ← locateGdb
  let client ← get
  let command ← lift (client.config.commandLine gdb program args)
  let environment ← lift (client.config.environmentOver client.environment)
  record (.spawned command client.config.workingDirectory environment)
  match client.spawning with
  | .fails reason => throw (.launch reason)
  | .gives process => pure process

/-- The name of the next session. Names count the attempts, so none is ever used twice. -/
def nextId : Control String := do
  modify fun client => { client with attempts := client.attempts + 1 }
  pure s!"session_{(← get).attempts}"

/-- Starts gdb on a program and attaches a session, whose name it gives. -/
def attach (program : String) (args : List String) : Control String := do
  let id ← nextId
  let process ← startGdb program args
  let views ← lift (← get).config.catalog
  modify fun client => { client with
    sessions := client.sessions.insert id ⟨Session.start process views, program, args⟩ }
  onSession id Engine.enqueuePreamble
  pure id

/-- Performs an operation with another working directory configured, and puts the configured one
back unless that is null. -/
def inDirectory (directory : String) (operation : Control α) : Control α := do
  let configured := (← get).config.workingDirectory
  let use (path : Json) : Control Unit := modify fun client =>
    { client with config := { client.config with workingDirectory := path } }
  use (.string directory)
  try operation
  finally
    match configured with
    | .null => pure ()
    | path => use path

end Control
end GdbControl

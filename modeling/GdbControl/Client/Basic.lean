import GdbControl.Config
import GdbControl.Session.Operation

/-!
The owner of all sessions. It keeps them by name in the order in which they were started, and keeps
one record of what it and they do. What the outside world will do next, and the client cannot
decide, is part of its state: how starting a process comes out, and what gdb does while the client
waits.
-/

namespace GdbControl

/-- A session with the program it was started on. -/
structure Attachment where
  session : Session
  program : String
  args : List String

inductive Delivery where
  | output (bytes : Bytes)
  | quiet
  | exit
deriving DecidableEq, Repr

inductive Spawning where
  | fails (reason : String)
  | gives (process : Subprocess)
deriving DecidableEq, Repr

/-- What a client does, in the order in which it does it. Times are in milliseconds. -/
inductive Activity where
  /-- A process is started, or at least tried to be. -/
  | spawned (command : List String) (directory : Json) (environment : List (String × Json))
  | did (session : String) (event : Event)
  /-- gdb is asked to quit; `heard` says whether it still reads its input. -/
  | askedToQuit (session : String) (heard : Bool)
  | waitedForEnd (session : String) (limit : Nat) (outcome : WaitOutcome)
  | terminated (session : String)
  | killed (session : String)
  | awaitedPrompt (session : String) (limit : Option Int)
  /-- No output came within the interval. -/
  | polled (session : String) (interval : Nat)
  /-- Stopping a session in the background met a fault. -/
  | stopFailed (session : String) (fault : Fault)
  /-- The background work of stopping was waited for. -/
  | joined (session : String) (limit : Nat)

structure Client where
  config : Config
  /-- Where the search path has gdb. -/
  gdbOnPath : Option String := none
  environment : List (String × Json) := []
  sessions : Table Attachment := Table.empty
  /-- The sessions that are kept no longer, each as it was last. -/
  former : List (String × Attachment) := []
  /-- How many sessions were ever asked for. -/
  attempts : Nat := 0
  spawning : Spawning := .gives { pid := 0 }
  /-- What gdb delivers while the client waits for its prompt. -/
  arriving : List Delivery := []
  journal : List Activity := []

/-- An operation of a client: it changes the state, and may fail. -/
abbrev Control := EStateM Fault Client

namespace Client

def log (client : Client) (activity : Activity) : Client :=
  { client with journal := client.journal ++ [activity] }

/-- The client after a session did something: the state is kept under its name, and what it did is
taken over into the record. -/
def keep (client : Client) (id : String) (attachment : Attachment) (session : Session) : Client :=
  { client with
    sessions := client.sessions.insert id
      { attachment with session := { session with journal := [] } }
    journal := client.journal ++ session.journal.map (.did id) }

/-- The client without a session. Whoever still has the session sees it as it was last. -/
def forget (client : Client) (id : String) : Client :=
  { client with
    sessions := client.sessions.erase id
    former := client.former ++ (client.sessions.get? id).toList.map (id, ·) }

end Client

namespace Control

def record (activity : Activity) : Control Unit := modify (·.log activity)

def lift (result : Except Fault α) : Control α :=
  match result with
  | .ok value => pure value
  | .error fault => throw fault

def find (id : String) : Control Attachment := do
  match (← get).sessions.get? id with
  | some attachment => pure attachment
  | none => throw (.sessionNotFound id)

/-- The session of a name, which must be alive if `alive` is set. -/
def require (id : String) (alive : Bool) : Control Attachment := do
  let attachment ← find id
  if alive && attachment.session.isClosed then throw .tornDown
  pure attachment

def onSession (id : String) (operation : Engine α) : Control α := do
  let attachment ← find id
  match operation.run attachment.session with
  | .ok value session =>
    modify (·.keep id attachment session)
    pure value
  | .error fault session =>
    modify (·.keep id attachment session)
    throw fault

end Control

namespace Engine

/-- Takes in what comes from gdb. When gdb exits nobody need wait for its prompt any more. -/
def receive : Delivery → Engine Unit
  | .output bytes => ingest handle bytes
  | .quiet => discard flush
  | .exit => do
    modify Session.close
    onDisplay (·.markReady)

end Engine
end GdbControl

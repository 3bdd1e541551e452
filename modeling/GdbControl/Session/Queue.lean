import GdbControl.Session.Basic

/-!
Commands go to gdb one for each prompt: first the urgent ones, then the idle ones. A question is
answered by urgent commands alone. What is written is always text that has an encoding, so writing
fails only when gdb does not read its input any more.
-/

namespace GdbControl

namespace Session

/-- Whether a command may be written at once. Idle commands never answer a question, and do not
overtake urgent ones. -/
def mayWrite (session : Session) : Tier → Bool
  | .urgent => session.prompting
  | .idle => session.prompting && !session.questioned && session.urgent.isEmpty

def queue (session : Session) : Tier → List Command
  | .urgent => session.urgent
  | .idle => session.idle

def withQueue (session : Session) (tier : Tier) (commands : List Command) : Session :=
  match tier with
  | .urgent => { session with urgent := commands }
  | .idle => { session with idle := commands }

def push (session : Session) (tier : Tier) (command : Command) : Session :=
  session.withQueue tier (session.queue tier ++ [command])

end Session

namespace Engine

def write (line : String) : Engine Unit := do
  if (← get).process.pipeBroken then throw .brokenPipe
  record (.wrote line)

/-- Puts a command in flight and writes it. It is in flight even if gdb cannot be written to. -/
def send (tier : Option Tier) (command : Command) : Engine Unit := do
  modify fun session => session.release.launch command
  record (.sent tier command)
  write command.written

def takeFirst (tier : Tier) : Engine Command := do
  let session ← get
  match session.queue tier with
  | [] => throw (.queueEmpty tier.name)
  | command :: rest =>
    set (session.withQueue tier rest)
    pure command

/-- Sends a command at once if gdb waits for it, and queues it otherwise. Says whether it was
sent. -/
def enqueue (tier : Tier) (command : Command) : Engine Bool := do
  requireOpen
  record (.accepted tier command)
  if (← get).mayWrite tier then
    send (some tier) command
    pure true
  else
    modify (·.push tier command)
    pure false

def sendNext (tier : Tier) : Engine Unit := do
  send (some tier) (← takeFirst tier)

/-- gdb is at its prompt: the next command goes out, or the session is idle. -/
def answerPrompt : Engine Unit := do
  modify fun session => { session with questioned := false }.release
  let session ← get
  if !session.urgent.isEmpty then sendNext .urgent
  else if !session.idle.isEmpty then sendNext .idle
  else
    set { session with prompting := true }
    record .idled
    onDisplay (·.markReady)

def answerQuestion : Engine Unit := do
  modify fun session => { session with questioned := true }
  let session ← get
  if !session.urgent.isEmpty then sendNext .urgent
  else set { session with prompting := true }

end Engine
end GdbControl
